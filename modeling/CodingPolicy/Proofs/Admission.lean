/-
CodingPolicy/Proofs/Admission.lean

Which places a file system admits.  Place and file system are given as URIs, and each is split
on its own.  Of both splits the check looks at the scheme and the authority alone, and what
follows an authority has no part in them (`Uri.Plain.split_spell_behind`).  So whether a place
is admitted is a matter of the two schemes, in either case, and of the two authorities, letter
for letter, where an authority that is left out on the side of the place stands for any:
`NamespacePath.OnFileSystem`.  A text that is no URI gives a place without a scheme, and that is
on every file system.

Main results: the check in these terms (`NamespacePath.checkFileSystem_spell`), and all that it
depends on (`NamespacePath.admission_by_names`).
-/
import CodingPolicy.Proofs.FileSystems

namespace CodingPolicy

/-! ### Splitting before what follows the authority -/

namespace Uri

variable {scheme authority rest : Text}

/-- What may follow an authority: nothing, or an absolute path with all that comes after it. -/
def Behind (rest : Text) : Prop :=
  rest = [] ∨ rest.head? = some (.char '/')

instance (rest : Text) : Decidable (Behind rest) :=
  inferInstanceAs (Decidable (_ ∨ _))

theorem Behind.endsAuthority (h : Behind rest) :
    ∀ c, rest.head? = some c → endsAuthority c = true := by
  intro c hc
  rcases h with rfl | h
  · cases hc
  · cases h.symm.trans hc
    rfl

theorem cleaned_of_isScheme (h : isScheme scheme = true) : cleaned scheme = scheme := by
  have := cleaned_append h []
  simpa using this

/-- **The scheme and the authority are split off as they are, whatever follows.** -/
theorem Plain.split_spell_behind (h : Plain scheme authority) (hrest : Behind rest) :
    ∃ u, split (spell scheme authority rest) = .ok u ∧ u.scheme = scheme.map CodePoint.toLower ∧
      u.authority = authority := by
  have hcleaned : cleaned scheme = scheme := cleaned_of_isScheme h.isScheme
  rw [split_spell_of_isScheme (hcleaned.symm ▸ h.isScheme) h.open_ hrest.endsAuthority,
    h.visible_authority, h.checked.1, ok_bind, h.checked.2, ok_bind, hcleaned]
  exact ⟨_, rfl, rfl, rfl⟩

end Uri

namespace NamespacePath

open Uri

variable {workingDir raw scheme authority scheme' authority' text rest fs : Text}
variable {p : NamespacePath}

/-! ### Places without a scheme -/

/-- A text that is no URI: a separator stands before every mark of a scheme. -/
def Unmarked (raw : Text) : Prop :=
  ∀ before behind, raw = before ++ schemeMark ++ behind → separator ∈ before

theorem Unmarked.looksLikeUri (h : Unmarked raw) : looksLikeUri raw = false := by
  unfold NamespacePath.looksLikeUri
  split
  · next before behind hcut =>
    exact decide_eq_false (not_not_intro (h before behind (Text.eq_of_cutAt hcut)))
  · rfl

theorem Unmarked.scheme_eq_nil (h : Unmarked raw) (hp : parse workingDir raw = .ok p) :
    p.scheme = [] := by
  obtain ⟨-, q, hq, hsettle⟩ := parse_eq_ok hp
  rw [h.looksLikeUri, if_neg Bool.false_ne_true] at hq
  cases hq
  exact (settle_eq_ok hsettle).1

/-- A place without a scheme is on every file system, be it one that cannot be split. -/
theorem checkFileSystem_of_scheme_eq_nil (h : p.scheme = []) (fs : Text) :
    p.checkFileSystem fs = .ok () := if_pos h

/-! ### Places with a scheme -/

/-- A URI of the first scheme and authority is on the file system of the others: the schemes are
the same in lower case, and the authority is left out or is that of the file system. -/
def OnFileSystem (scheme authority scheme' authority' : Text) : Prop :=
  scheme.map CodePoint.toLower = scheme'.map CodePoint.toLower ∧
    (authority = [] ∨ authority = authority')

instance (scheme authority scheme' authority' : Text) :
    Decidable (OnFileSystem scheme authority scheme' authority') :=
  inferInstanceAs (Decidable (_ ∧ _))

/-- A place that was read keeps the scheme in lower case, and the authority. -/
theorem parts_of_parse_spell (h : Plain scheme authority) (htext : Behind text)
    (hp : parse workingDir (spell scheme authority text) = .ok p) :
    p.scheme = scheme.map CodePoint.toLower ∧ p.authority = authority := by
  have hlooks : looksLikeUri (spell scheme authority text) = true := by
    rw [spell, List.append_assoc]
    exact looksLikeUri_append h.isScheme (authority ++ text)
  obtain ⟨u, hu, hscheme, hauthority⟩ := h.split_spell_behind htext
  obtain ⟨-, q, hq, hsettle⟩ := parse_eq_ok hp
  rw [if_pos hlooks] at hq
  obtain ⟨u', hu', -, -, rfl⟩ := splitUri_eq_ok.1 hq
  cases hu.symm.trans hu'
  obtain ⟨hs, ha, -⟩ := settle_eq_ok hsettle
  exact ⟨hs.trans hscheme, ha.trans hauthority⟩

/-- **A place given as a URI is on a file system just where its scheme and its authority are.** -/
theorem checkFileSystem_spell (h : Plain scheme authority) (h' : Plain scheme' authority')
    (htext : Behind text) (hrest : Behind rest)
    (hp : parse workingDir (spell scheme authority text) = .ok p) :
    p.checkFileSystem (spell scheme' authority' rest) =
      if OnFileSystem scheme authority scheme' authority' then .ok ()
      else .error (.invalidArgument
        (.otherFileSystem p.render (spell scheme' authority' rest))) := by
  obtain ⟨hscheme, hauthority⟩ := parts_of_parse_spell h htext hp
  obtain ⟨u, hu, hscheme', hauthority'⟩ := h'.split_spell_behind hrest
  have hne : p.scheme ≠ [] := by
    rw [hscheme]
    exact map_toLower_ne_nil h.isScheme
  rw [checkFileSystem, if_neg hne, hu]
  show (if p.scheme = u.scheme ∧ (p.authority = [] ∨ p.authority = u.authority) then _ else _) = _
  rw [hscheme, hauthority, hscheme', hauthority']
  rfl

/-- **Scheme and authority decide which places a file system admits.**  A place read from a URI
passes the check against a file system just where the schemes are the same but for the case of
their letters and the authority is left out or the same to the letter; any other is refused as
an invalid argument, which names the place and the file system.  What follows the authority, on
either side, changes nothing.  A place read from a text that is no URI passes against every file
system. -/
theorem admission_by_names (workingDir scheme authority scheme' authority' : Text)
    (h : Plain scheme authority) (h' : Plain scheme' authority') :
    (∀ text rest p, Behind text → Behind rest →
      parse workingDir (spell scheme authority text) = .ok p →
      (p.checkFileSystem (spell scheme' authority' rest) = .ok () ↔
        OnFileSystem scheme authority scheme' authority') ∧
      (p.checkFileSystem (spell scheme' authority' rest) ≠ .ok () →
        p.checkFileSystem (spell scheme' authority' rest) = .error (.invalidArgument
          (.otherFileSystem p.render (spell scheme' authority' rest))))) ∧
    (∀ text rest p text' rest' p', Behind text → Behind rest → Behind text' → Behind rest' →
      parse workingDir (spell scheme authority text) = .ok p →
      parse workingDir (spell scheme authority text') = .ok p' →
      (p.checkFileSystem (spell scheme' authority' rest) = .ok () ↔
        p'.checkFileSystem (spell scheme' authority' rest') = .ok ())) ∧
    ∀ raw p fs, Unmarked raw → parse workingDir raw = .ok p → p.checkFileSystem fs = .ok () := by
  have hiff {text rest : Text} {p : NamespacePath} (htext : Behind text) (hrest : Behind rest)
      (hp : parse workingDir (spell scheme authority text) = .ok p) :
      p.checkFileSystem (spell scheme' authority' rest) = .ok () ↔
        OnFileSystem scheme authority scheme' authority' := by
    rw [checkFileSystem_spell h h' htext hrest hp]
    split <;> simp_all
  refine ⟨fun text rest p htext hrest hp => ⟨hiff htext hrest hp, fun hnot => ?_⟩, ?_, ?_⟩
  · have hother : ¬ OnFileSystem scheme authority scheme' authority' :=
      fun hon => hnot ((hiff htext hrest hp).2 hon)
    rw [checkFileSystem_spell h h' htext hrest hp, if_neg hother]
  · intro text rest p text' rest' p' htext hrest htext' hrest' hp hp'
    exact (hiff htext hrest hp).trans (hiff htext' hrest' hp').symm
  · intro raw p fs hraw hp
    exact checkFileSystem_of_scheme_eq_nil (hraw.scheme_eq_nil hp) fs

/-- A scheme in capitals and no authority are admitted, an authority in capitals is not, and a
relative path is admitted even against a file system that cannot be split. -/
theorem admission_by_names_capitals :
    Plain "ECFS".text [] ∧ Plain "ecfs".text "H".text ∧ Plain "ecfs".text "h".text ∧
      (∃ p, parse "/".text "ECFS://".text = .ok p ∧
        p.checkFileSystem "ecfs://h/[?".text = .ok ()) ∧
      (∃ p, parse "/".text "ecfs://H/a".text = .ok p ∧
        ∃ cause, p.checkFileSystem "ecfs://h".text = .error (.invalidArgument cause)) ∧
      ∃ p, parse "/".text "a".text = .ok p ∧ p.checkFileSystem "ecfs://[x".text = .ok () := by
  have hopen : Plain "ECFS".text [] := ⟨rfl, by simp, by simp, by simp⟩
  have hcapital : Plain "ecfs".text "H".text := ⟨rfl, by decide, by decide, by decide⟩
  have hsmall : Plain "ecfs".text "h".text := ⟨rfl, by decide, by decide, by decide⟩
  obtain ⟨hadmits, -, hbare⟩ := admission_by_names "/".text _ _ _ _ hopen hsmall
  obtain ⟨hrefuses, -, -⟩ := admission_by_names "/".text _ _ _ _ hcapital hsmall
  have hunmarked : Unmarked "a".text := by
    intro before behind he
    have hmem : .char ':' ∈ "a".text := by
      rw [he]
      exact List.mem_append_left _ (List.mem_append_right _ (.head _))
    exact absurd hmem (by decide)
  obtain ⟨hon, hother⟩ := hrefuses "/a".text [] _ (.inr rfl) (.inl rfl) rfl
  have hnot : ¬ OnFileSystem "ecfs".text "H".text "ecfs".text "h".text := by decide
  refine ⟨hopen, hcapital, hsmall, ⟨_, rfl, ?_⟩, ⟨_, rfl, _, hother (mt hon.1 hnot)⟩, _, rfl, ?_⟩
  · exact (hadmits [] "/[?".text _ (.inl rfl) (.inr rfl) rfl).1.2 ⟨rfl, .inl rfl⟩
  · exact hbare "a".text _ _ hunmarked rfl

end NamespacePath

end CodingPolicy
