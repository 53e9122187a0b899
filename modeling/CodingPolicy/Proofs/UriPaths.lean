/-
CodingPolicy/Proofs/UriPaths.lean

One text, given bare and behind a scheme and an authority.  A bare text is read as
it stands.  Behind an authority the tabs, line feeds and carriage returns are left
out (`Uri.visible`), and the path goes no further than the first question mark or
hash sign (`Uri.pathPart`).  A query or a fragment that is there is refused, but one
that is empty is taken for none (`Uri.emptyTails`).  So what a URI is read as is the
place of a part of the text (`NamespacePath.parse_spell`), and the bare text stands
for that place only where nothing that counts was taken from it.

Main result: `NamespacePath.reading_of_spell`, with the exact condition under which
both ways to give a text agree (`NamespacePath.alike_iff`).
-/
import Mathlib.Data.List.TakeWhile
import CodingPolicy.Proofs.Spelling

namespace CodingPolicy

/-! ### What a URI shows of a text -/

namespace Uri

variable {scheme authority text : Text}

/-- The text without the characters that are left out. -/
def visible (text : Text) : Text :=
  text.filter fun c => !isLeftOut c

/-- A character that the path of a URI ends before. -/
def isMark (c : CodePoint) : Bool :=
  c == '?' || c == '#'

/-- The part of the text that is the path of the URI. -/
def pathPart (text : Text) : Text :=
  (visible text).takeWhile fun c => !isMark c

/-- What follows the path. -/
def tail (text : Text) : Text :=
  (visible text).dropWhile fun c => !isMark c

/-- What may follow the path: nothing but a query and a fragment that are empty. -/
def emptyTails : List Text :=
  [[], [.char '?'], [.char '#'], [.char '?', .char '#']]

/-- A scheme, and an authority of printable characters that is split off as it is. -/
structure Plain (scheme authority : Text) : Prop where
  /-- The scheme is one. -/
  isScheme : isScheme scheme = true
  /-- The characters of the authority are printable and in the first 128. -/
  printable : ∀ c ∈ authority, 0x20 ≤ c.toNat ∧ c.toNat ≤ 0x7e
  /-- Nothing in the authority ends it. -/
  open_ : ∀ c ∈ authority, endsAuthority c = false
  /-- The authority has no bracket. -/
  no_bracket : .char '[' ∉ authority ∧ .char ']' ∉ authority

/-- The text behind the scheme and the authority. -/
def spell (scheme authority text : Text) : Text :=
  scheme ++ "://".text ++ authority ++ text

theorem not_isLeftOut_of_printable {c : CodePoint} (h : 0x20 ≤ c.toNat) : isLeftOut c = false := by
  have hne (d : CodePoint) (hd : d.toNat < 0x20) : c ≠ d := by
    rintro rfl
    omega
  simp [isLeftOut, hne '\t' (by decide), hne '\n' (by decide), hne '\r' (by decide)]

/-- The rules on authorities are kept. -/
theorem Plain.checked (h : Plain scheme authority) :
    checkBrackets authority = .ok () ∧ checkDelimiters authority = .ok () := by
  refine ⟨if_pos h.no_bracket, if_neg ?_⟩
  rw [List.any_eq_true]
  rintro ⟨c, hc, hhidden⟩
  -- every hidden delimiter lies behind the first 128 characters
  have hfar : ∀ n ∈ hiddenDelimiters, 0x7e < n := by decide
  have hle := (h.printable c hc).2
  have hlt := hfar c.toNat (of_decide_eq_true hhidden)
  omega

/-- Nothing is left out of the authority. -/
theorem Plain.visible_authority (h : Plain scheme authority) : visible authority = authority := by
  rw [visible, List.filter_eq_self]
  intro c hc
  rw [not_isLeftOut_of_printable (h.printable c hc).1]
  rfl

/-- Nothing is left out of what stands before the text. -/
theorem Plain.cleaned_spell (h : Plain scheme authority) (text : Text) :
    cleaned (spell scheme authority text) = spell scheme authority (visible text) := by
  have hmark : ("://".text).filter (fun c => !isLeftOut c) = "://".text := by decide
  have hauthority : authority.filter (fun c => !isLeftOut c) = authority := h.visible_authority
  rw [spell, List.append_assoc, List.append_assoc, cleaned_append h.isScheme, List.filter_append,
    List.filter_append, hmark, hauthority]
  simp only [spell, visible, List.append_assoc]

/-- A path without marks is cut off before what follows, and query and fragment are
both empty just where nothing but empty ones follow. -/
theorem splitAt_path {before after : Text} (hb : ∀ c ∈ before, isMark c = false)
    (ha : ∀ c, after.head? = some c → isMark c = true) :
    (splitAt '?' (splitAt '#' (before ++ after)).1).1 = before ∧
      ((splitAt '?' (splitAt '#' (before ++ after)).1).2 = [] ∧
        (splitAt '#' (before ++ after)).2 = [] ↔ after ∈ emptyTails) := by
  have hquery : .char '?' ∉ before := fun h => Bool.false_ne_true ((hb _ h).symm.trans rfl)
  have hfragment : .char '#' ∉ before := fun h => Bool.false_ne_true ((hb _ h).symm.trans rfl)
  rcases after with - | ⟨c, r⟩
  · rw [List.append_nil, splitAt_of_not_mem hfragment, splitAt_of_not_mem hquery]
    simp [emptyTails]
  · have hc := ha c rfl
    simp only [isMark, Bool.or_eq_true, beq_iff_eq] at hc
    rcases hc with rfl | rfl
    · by_cases hr : .char '#' ∈ r
      · -- the query goes as far as the first hash sign
        obtain ⟨query, fragment, rfl, hq⟩ := List.eq_append_cons_of_mem hr
        have hnot : .char '#' ∉ before ++ .char '?' :: query := by
          rw [List.mem_append, List.mem_cons]
          rintro (h | h | h)
          · exact hfragment h
          · exact absurd h (by decide)
          · exact hq h
        have hcut := splitAt_append hnot fragment
        rw [List.append_assoc, List.cons_append] at hcut
        rw [hcut, splitAt_append hquery]
        cases query <;> simp [emptyTails]
      · have hnot : .char '#' ∉ before ++ .char '?' :: r := by
          rw [List.mem_append, List.mem_cons]
          rintro (h | h | h)
          · exact hfragment h
          · exact absurd h (by decide)
          · exact hr h
        have hne : r ≠ [.char '#'] := by
          rintro rfl
          exact hr (.head _)
        rw [splitAt_of_not_mem hnot, splitAt_append hquery]
        simp [emptyTails, hne]
    · rw [splitAt_append hfragment, splitAt_of_not_mem hquery]
      simp [emptyTails]

/-- **A text behind a scheme and an authority is split into its path part, with a
query and a fragment that are empty just where an empty tail follows.** -/
theorem Plain.split_spell (h : Plain scheme authority) (ht : text.head? = some (.char '/')) :
    ∃ query fragment, split (spell scheme authority text) =
        .ok ⟨scheme.map CodePoint.toLower, authority, pathPart text, query, fragment⟩ ∧
      (query = [] ∧ fragment = [] ↔ tail text ∈ emptyTails) := by
  have hvisible : (visible text).head? = some (.char '/') := by
    obtain ⟨r, rfl⟩ : ∃ r, text = .char '/' :: r := List.head?_eq_some_iff.1 ht
    rfl
  have hscheme : splitScheme (spell scheme authority (visible text)) =
      (scheme.map CodePoint.toLower, .char '/' :: .char '/' :: (authority ++ visible text)) := by
    have htext : spell scheme authority (visible text) =
        scheme ++ .char ':' :: .char '/' :: .char '/' :: (authority ++ visible text) := by
      simp [spell, String.text, Text.ofChars]
    rw [htext, splitScheme_append h.isScheme]
  have hbefore : ∀ c ∈ pathPart text, isMark c = false := fun c => Text.not_of_mem_takeWhile
  have hafter : ∀ c, (tail text).head? = some c → isMark c = true := fun c =>
    Text.of_head?_dropWhile
  obtain ⟨hpath, hempty⟩ := splitAt_path hbefore hafter
  have hparts : pathPart text ++ tail text = visible text := List.takeWhile_append_dropWhile
  rw [hparts] at hpath hempty
  refine ⟨_, _, ?_, hempty⟩
  rw [split_eq, h.cleaned_spell, hscheme, splitAuthority_append h.open_ hvisible, h.checked.1,
    ok_bind, h.checked.2, ok_bind]
  dsimp only
  rw [hpath]

theorem head?_pathPart (ht : text.head? = some (.char '/')) :
    (pathPart text).head? = some (.char '/') := by
  obtain ⟨r, rfl⟩ : ∃ r, text = .char '/' :: r := List.head?_eq_some_iff.1 ht
  rfl

/-- A text without marks is all path, but for what is left out. -/
theorem pathPart_eq_visible (h : ∀ c ∈ text, isMark c = false) :
    pathPart text = visible text := by
  rw [pathPart, List.takeWhile_eq_self_iff]
  intro c hc
  rw [h c (List.mem_filter.1 hc).1]
  rfl

/-- A text without marks has nothing behind its path. -/
theorem tail_eq_nil (h : ∀ c ∈ text, isMark c = false) : tail text = [] := by
  rw [tail, List.dropWhile_eq_nil_iff]
  intro c hc
  rw [h c (List.mem_filter.1 hc).1]
  rfl

end Uri

/-! ### The two readings -/

namespace NamespacePath

open Uri

variable {workingDir scheme authority text : Text}

/-- **What a text is read as behind a scheme and an authority.** -/
theorem parse_spell (h : Plain scheme authority) (ht : text.head? = some (.char '/'))
    (hn : .char '\x00' ∉ text) (workingDir : Text) :
    parse workingDir (spell scheme authority text) =
      if tail text ∈ emptyTails then
        match normalize? (pathPart text) with
        | some path => .ok ⟨path, scheme.map CodePoint.toLower, authority⟩
        | none => .error (.invalidArgument (.aboveRoot (spell scheme authority text)))
      else .error (.invalidArgument (.queryOrFragment (spell scheme authority text))) := by
  have hscheme : scheme ≠ [] := by
    rintro rfl
    cases h.isScheme
  have hne : spell scheme authority text ≠ [] := by simp [spell]
  have hnul : .char '\x00' ∉ spell scheme authority text := by
    rw [spell, List.mem_append, List.mem_append, List.mem_append]
    rintro (((hc | hc) | hc) | hc)
    · exact ne_of_isSchemeChar (d := '\x00') (isSchemeChar_of_mem h.isScheme hc) rfl rfl
    · exact absurd hc (by decide)
    · exact absurd (h.printable _ hc).1 (by decide)
    · exact hn hc
  have hlooks : looksLikeUri (spell scheme authority text) = true := by
    rw [spell, List.append_assoc]
    exact looksLikeUri_append h.isScheme (authority ++ text)
  obtain ⟨query, fragment, hsplit, hempty⟩ := h.split_spell ht
  have hpath : (pathPart text).head? = some (.char '/') := head?_pathPart ht
  have hpathne : pathPart text ≠ [] := by
    intro he
    rw [he] at hpath
    cases hpath
  have hlower : scheme.map CodePoint.toLower ≠ [] := by simpa using hscheme
  rw [parse_eq, if_neg hne, if_neg hnul, if_pos hlooks, splitUri, hsplit]
  dsimp only
  rw [if_neg hlower]
  by_cases htail : tail text ∈ emptyTails
  · obtain ⟨rfl, rfl⟩ := hempty.2 htail
    have habsolute : absolute workingDir (pathPart text) = pathPart text := if_pos hpath
    rw [if_neg (by simp), if_neg hpathne, if_pos htail, ok_bind]
    unfold settle
    rcases e : normalize? (pathPart text) with - | path <;> simp only [habsolute, e]
  · have hthere : query ≠ [] ∨ fragment ≠ [] := by
      by_cases hq : query = []
      · exact .inr fun hf => htail (hempty.1 ⟨hq, hf⟩)
      · exact .inl hq
    rw [if_pos hthere, if_neg htail, error_bind]

/-- A URI with a scheme and an authority and a bare text have the same path, or
neither stands for a place, since both are invalid arguments. -/
inductive SameKey (workingDir scheme authority uri bare : Text) : Prop where
  /-- Both are read, with the same path. -/
  | read {path : Text}
      (uri : parse workingDir uri = .ok ⟨path, scheme.map CodePoint.toLower, authority⟩)
      (bare : parse workingDir bare = .ok { path })
  /-- Both are refused as invalid arguments. -/
  | refused {cause cause' : InvalidArgument}
      (uri : parse workingDir uri = .error (.invalidArgument cause))
      (bare : parse workingDir bare = .error (.invalidArgument cause'))

/-- **Without a query or a fragment a URI has the path of its path part.** -/
theorem sameKey_pathPart (h : Plain scheme authority) (ht : text.head? = some (.char '/'))
    (hn : .char '\x00' ∉ text) (htail : tail text ∈ emptyTails) (workingDir : Text) :
    SameKey workingDir scheme authority (spell scheme authority text) (pathPart text) := by
  have hnul : .char '\x00' ∉ pathPart text := fun hc =>
    hn (List.mem_filter.1 ((List.takeWhile_sublist _).subset hc)).1
  have huri := parse_spell h ht hn workingDir
  have hbare := parse_of_head? (head?_pathPart ht) hnul workingDir
  rw [if_pos htail] at huri
  cases e : normalize? (pathPart text) with
  | none =>
    rw [e] at huri hbare
    exact .refused huri hbare
  | some path =>
    rw [e] at huri hbare
    exact .read huri hbare

/-- A URI and a bare text have the same path just where the path part of the one and
the other stand for the same. -/
theorem sameKey_iff (h : Plain scheme authority) (ht : text.head? = some (.char '/'))
    (hn : .char '\x00' ∉ text) (htail : tail text ∈ emptyTails) (workingDir : Text) :
    SameKey workingDir scheme authority (spell scheme authority text) text ↔
      normalize? (pathPart text) = normalize? text := by
  have huri := parse_spell h ht hn workingDir
  have hbare := parse_of_head? ht hn workingDir
  rw [if_pos htail] at huri
  rcases e : normalize? (pathPart text) with - | path <;>
    rcases e' : normalize? text with - | path' <;> rw [e] at huri <;> rw [e'] at hbare
  · exact iff_of_true (.refused huri hbare) rfl
  · refine iff_of_false (fun hsame => ?_) nofun
    cases hsame with
    | read hu _ => cases hu.symm.trans huri
    | refused _ hb => cases hb.symm.trans hbare
  · refine iff_of_false (fun hsame => ?_) nofun
    cases hsame with
    | read _ hb => cases hb.symm.trans hbare
    | refused hu _ => cases hu.symm.trans huri
  · constructor
    · intro hsame
      cases hsame with
      | read hu hb =>
        cases hu.symm.trans huri
        cases hb.symm.trans hbare
        rfl
      | refused hu _ => cases hu.symm.trans huri
    · intro he
      cases he
      exact .read huri hbare

/-- What both ways to give a text promise: with a question mark or a hash sign the URI
is refused as an invalid argument, and without one both have the same path. -/
def Alike (workingDir scheme authority text : Text) : Prop :=
  if .char '?' ∈ text ∨ .char '#' ∈ text then
    ∃ cause, parse workingDir (spell scheme authority text) = .error (.invalidArgument cause)
  else SameKey workingDir scheme authority (spell scheme authority text) text

/-- **Where the promise is kept**: an empty query or fragment is passed over, so a mark
is refused with it only if the path leads above the root; and without marks the
text must stand for the same path when tabs, line feeds and carriage returns are
left out of it. -/
theorem alike_iff (h : Plain scheme authority) (ht : text.head? = some (.char '/'))
    (hn : .char '\x00' ∉ text) (workingDir : Text) :
    Alike workingDir scheme authority text ↔
      if .char '?' ∈ text ∨ .char '#' ∈ text then
        tail text ∉ emptyTails ∨ normalize? (pathPart text) = none
      else normalize? (visible text) = normalize? text := by
  unfold Alike
  by_cases hmark : .char '?' ∈ text ∨ .char '#' ∈ text
  · rw [if_pos hmark, if_pos hmark, parse_spell h ht hn]
    by_cases htail : tail text ∈ emptyTails
    · rw [if_pos htail]
      cases normalize? (pathPart text) <;> simp [htail]
    · rw [if_neg htail]
      simp [htail]
  · have hnone : ∀ c ∈ text, isMark c = false := by
      intro c hc
      rw [not_or] at hmark
      have hquery : c ≠ '?' := fun he => hmark.1 (he ▸ hc)
      have hfragment : c ≠ '#' := fun he => hmark.2 (he ▸ hc)
      simp [isMark, hquery, hfragment]
    have htail : tail text ∈ emptyTails := by
      rw [tail_eq_nil hnone]
      exact .head _
    rw [if_neg hmark, if_neg hmark, sameKey_iff h ht hn htail, pathPart_eq_visible hnone]

/-- **A URI addresses the place of its path part.**  A query or a fragment that is not
empty is refused, and otherwise the URI has the path of its path part, the scheme in
lower case and the authority as it is, or is refused as that part is.  The text has
the same path bare just where `alike_iff` says. -/
theorem reading_of_spell (workingDir scheme authority text : Text)
    (h : Plain scheme authority) (ht : text.head? = some (.char '/')) (hn : .char '\x00' ∉ text) :
    (tail text ∉ emptyTails →
      parse workingDir (spell scheme authority text) =
        .error (.invalidArgument (.queryOrFragment (spell scheme authority text)))) ∧
    (tail text ∈ emptyTails →
      SameKey workingDir scheme authority (spell scheme authority text) (pathPart text)) ∧
    (Alike workingDir scheme authority text ↔
      if .char '?' ∈ text ∨ .char '#' ∈ text then
        tail text ∉ emptyTails ∨ normalize? (pathPart text) = none
      else normalize? (visible text) = normalize? text) := by
  refine ⟨fun htail => ?_, fun htail => sameKey_pathPart h ht hn htail workingDir,
    alike_iff h ht hn workingDir⟩
  rw [parse_spell h ht hn, if_neg htail]

/-- An empty query and a tab are passed over, wherever they stand. -/
theorem reading_of_spell_tab :
    Plain "ECFS".text "h:1".text ∧
      parse "/".text (spell "ECFS".text "h:1".text "/a\tb?".text) =
        .ok ⟨"/ab".text, "ecfs".text, "h:1".text⟩ ∧
      SameKey "/".text "ECFS".text "h:1".text
        (spell "ECFS".text "h:1".text "/a\tb?".text) "/ab".text := by
  have hplain : Plain "ECFS".text "h:1".text :=
    ⟨by decide, by decide, by decide, by decide⟩
  exact ⟨hplain, rfl, (reading_of_spell "/".text _ _ "/a\tb?".text hplain rfl (by decide)).2.1
    (by decide)⟩

/-- The two ways to give a text do not always agree: an empty query is passed over, and
so is a tab, which the bare text keeps. -/
theorem not_always_alike :
    ¬ Alike "/".text "ecfs".text "h".text "/a?".text ∧
      ¬ Alike "/".text "ecfs".text "h".text "/a\tb".text := by
  constructor
  · intro h
    rw [Alike, if_pos (by decide)] at h
    obtain ⟨cause, h⟩ := h
    cases h
  · intro h
    rw [Alike, if_neg (by decide)] at h
    cases h with
    | read huri hbare =>
      cases huri
      cases hbare
    | refused huri => cases huri

end NamespacePath

end CodingPolicy
