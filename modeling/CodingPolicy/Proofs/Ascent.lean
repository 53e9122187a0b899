/-
CodingPolicy/Proofs/Ascent.lean

The walk from a place up to the root, and why it ends.  A walk goes from each place to the
one above it until there is none (`NamespacePath.Ascent`); nothing in that bounds the number
of its steps.  A step cuts the path off before its last separator, and where nothing stands
before that it leads to the root.  So each step takes a separator away, or is the last one:
`NamespacePath.height` counts them.  But a path that does not start with a separator comes in
the end to a text without one, which is its own parent, and the walk goes on forever.

Main results: the walk from an absolute path, canonical or not, ends with the places of its
lineage (`NamespacePath.ascent_lineage`), and there is no other (`NamespacePath.Ascent.unique`);
it ends from no other path but the empty one (`NamespacePath.exists_ascent_iff`).
-/
import CodingPolicy.Proofs.Paths

namespace CodingPolicy

/-! ### The last separator -/

namespace Text

variable {sep : CodePoint} {t : Text}

theorem exists_last (h : sep ∈ t) : ∃ a x, t = a ++ sep :: x ∧ sep ∉ x := by
  obtain ⟨x, a, ht, hx⟩ := List.eq_append_cons_of_mem (List.mem_reverse.2 h)
  refine ⟨a.reverse, x.reverse, ?_, fun hc => hx (List.mem_reverse.1 hc)⟩
  rw [← List.reverse_reverse t, ht]
  simp

theorem beforeLast_of_not_mem (h : sep ∉ t) : beforeLast sep t = t := by
  have hall : t.reverse.all (· ≠ sep) = true := by
    rw [List.all_eq_true]
    intro c hc
    have : c ≠ sep := fun he => h (he ▸ List.mem_reverse.1 hc)
    simpa using this
  rw [beforeLast, dropWhile_eq_nil_of_all hall]

end Text

/-! ### One step up -/

namespace NamespacePath

variable {p q : NamespacePath} {places places' : List NamespacePath}

/-- The place of the same scheme and authority at another path. -/
def moveTo (p : NamespacePath) (path : Text) : NamespacePath :=
  { p with path }

theorem parent?_eq_none_iff : p.parent? = none ↔ p.path = [separator] := by
  unfold parent? isRoot
  by_cases h : p.path = [separator] <;> simp [h]

/-- A step up changes nothing but the path. -/
theorem eq_of_parent? (h : p.parent? = some q) : q = p.moveTo q.path := by
  unfold parent? at h
  split at h
  · cases h
  · cases h
    rfl

/-- A step up leads to what stands before the last separator, or to the root. -/
theorem parent?_append {a x : Text} (hx : separator ∉ x) (hp : p.path = a ++ separator :: x)
    (hroot : p.path ≠ [separator]) :
    p.parent? = some (p.moveTo (if a = [] then [separator] else a)) := by
  have hnot : ¬ p.isRoot = true := by simpa [isRoot] using hroot
  rw [parent?, if_neg hnot, hp, Text.beforeLast_append hx]
  rfl

/-- A text without a separator is its own parent. -/
theorem parent?_of_not_mem (h : separator ∉ p.path) (hne : p.path ≠ []) : p.parent? = some p := by
  have hnot : ¬ p.isRoot = true := by
    rw [isRoot, decide_eq_true_eq]
    intro he
    exact h (he ▸ .head _)
  rw [parent?, if_neg hnot, Text.beforeLast_of_not_mem h]
  show some (p.moveTo (if p.path = [] then [separator] else p.path)) = some p
  rw [if_neg hne]
  rfl

/-- The number of steps that a place is at most away from the root. -/
def height (p : NamespacePath) : Nat :=
  if p.isRoot then 0 else p.path.count separator

theorem height_le (p : NamespacePath) : p.height ≤ p.path.count separator := by
  unfold height
  split
  · exact Nat.zero_le _
  · exact Nat.le_refl _

theorem height_of_ne_root (h : p.path ≠ [separator]) : p.height = p.path.count separator := by
  have hnot : ¬ p.isRoot = true := by simpa [isRoot] using h
  exact if_neg hnot

/-- **A step up from an absolute path leads to an absolute path, and nearer to the root.** -/
theorem height_lt_of_parent? (hp : p.path.head? = some separator) (h : p.parent? = some q) :
    q.path.head? = some separator ∧ q.height < p.height := by
  have hroot : p.path ≠ [separator] := by
    intro he
    cases (parent?_eq_none_iff.2 he).symm.trans h
  obtain ⟨a, x, hpath, hx⟩ := Text.exists_last (List.mem_of_mem_head? hp)
  have hcount : p.height = a.count separator + 1 := by
    rw [height_of_ne_root hroot, hpath, List.count_append, List.count_cons_self,
      List.count_eq_zero.2 hx]
  rw [parent?_append hx hpath hroot] at h
  cases h
  by_cases ha : a = []
  · rw [if_pos ha]
    exact ⟨rfl, by rw [hcount]; exact Nat.succ_pos _⟩
  · rw [if_neg ha]
    have hhead : a.head? = some separator := by
      obtain ⟨c, r, rfl⟩ := List.exists_cons_of_ne_nil ha
      rw [hpath] at hp
      exact hp
    refine ⟨hhead, ?_⟩
    rw [hcount]
    exact Nat.lt_succ_of_le (height_le (p.moveTo a))

/-! ### The walk -/

/-- The places on a walk up to the root: each is followed by the one above it. -/
inductive Ascent : NamespacePath → List NamespacePath → Prop
  /-- The walk ends where there is nothing above. -/
  | root {p : NamespacePath} (h : p.parent? = none) : Ascent p [p]
  /-- The walk goes on from the place above. -/
  | step {p q : NamespacePath} {places : List NamespacePath} (h : p.parent? = some q)
      (rest : Ascent q places) : Ascent p (p :: places)

namespace Ascent

/-- There is no choice on the way. -/
theorem unique (h : Ascent p places) (h' : Ascent p places') : places = places' := by
  induction h generalizing places' with
  | root h =>
    cases h' with
    | root => rfl
    | step h' rest' => cases h.symm.trans h'
  | step h rest ih =>
    cases h' with
    | root h' => cases h'.symm.trans h
    | step h' rest' =>
      cases h.symm.trans h'
      rw [ih rest']

/-- The walk ends at the root, under the scheme and the authority that it started with. -/
theorem getLast? (h : Ascent p places) :
    places.getLast? = some (p.moveTo [separator]) := by
  induction h with
  | @root p h =>
    rw [← parent?_eq_none_iff.1 h]
    rfl
  | @step p q places h rest ih =>
    rw [List.getLast?_cons, ih, eq_of_parent? h]
    rfl

variable (hp : p.path.head? = some separator)
include hp

theorem length_le (h : Ascent p places) : places.length ≤ p.height + 1 := by
  induction h with
  | root => exact Nat.le_add_left 1 _
  | step h rest ih =>
    obtain ⟨hq, hlt⟩ := height_lt_of_parent? hp h
    have := ih hq
    rw [List.length_cons]
    omega

/-- The places come nearer to the root all the way. -/
theorem pairwise_height (h : Ascent p places) :
    (∀ q ∈ places, q.height ≤ p.height) ∧ places.Pairwise fun a b => b.height < a.height := by
  induction h with
  | root => exact ⟨by simp, List.pairwise_singleton _ _⟩
  | @step p q places h rest ih =>
    obtain ⟨hq, hlt⟩ := height_lt_of_parent? hp h
    obtain ⟨hle, hpairs⟩ := ih hq
    have hbelow : ∀ a ∈ places, a.height < p.height := fun a ha =>
      Nat.lt_of_le_of_lt (hle a ha) hlt
    refine ⟨fun a ha => ?_, List.pairwise_cons.2 ⟨hbelow, hpairs⟩⟩
    rcases List.mem_cons.1 ha with rfl | ha
    · exact Nat.le_refl _
    · exact Nat.le_of_lt (hbelow a ha)

/-- No place is visited twice. -/
theorem nodup (h : Ascent p places) : places.Nodup := by
  refine (h.pairwise_height hp).2.imp fun {a b} hlt => ?_
  rintro rfl
  exact Nat.lt_irrefl _ hlt

end Ascent

/-- The walk is over within the bound of a lineage. -/
theorem ascent_lineageWithin {bound : Nat} (hp : p.path.head? = some separator)
    (hb : p.height < bound) : Ascent p (lineageWithin bound p) := by
  induction bound generalizing p with
  | zero => exact absurd hb (Nat.not_lt_zero _)
  | succ bound ih =>
    rw [lineageWithin]
    rcases h : p.parent? with - | q
    · exact .root h
    · obtain ⟨hq, hlt⟩ := height_lt_of_parent? hp h
      exact .step h (ih hq (by omega))

/-- **The walk from an absolute path ends, with the places of the lineage.** -/
theorem ascent_lineage (hp : p.path.head? = some separator) : Ascent p p.lineage := by
  refine ascent_lineageWithin hp ?_
  have := height_le p
  have : p.path.count separator ≤ p.path.length := List.count_le_length
  omega

/-- From a text that does not start with a separator, no step leads to one that does. -/
theorem not_ascent_of_relative (hne : p.path ≠ []) (hp : p.path.head? ≠ some separator) :
    ¬ Ascent p places := by
  intro h
  induction h with
  | root h =>
    rw [parent?_eq_none_iff.1 h] at hp
    exact hp rfl
  | @step p q places h rest ih =>
    by_cases hmem : separator ∈ p.path
    · obtain ⟨a, x, hpath, hx⟩ := Text.exists_last hmem
      have ha : a ≠ [] := by
        rintro rfl
        rw [hpath] at hp
        exact hp rfl
      have hroot : p.path ≠ [separator] := by
        intro he
        rw [he] at hp
        exact hp rfl
      rw [parent?_append hx hpath hroot, if_neg ha] at h
      cases h
      refine ih ha fun hhead => hp ?_
      obtain ⟨c, r, rfl⟩ := List.exists_cons_of_ne_nil ha
      rw [hpath]
      exact hhead
    · -- the text is its own parent
      rw [parent?_of_not_mem hmem hne] at h
      cases h
      exact ih hne hp

/-- **The walk ends just from the absolute paths, and from the empty one.** -/
theorem exists_ascent_iff :
    (∃ places, Ascent p places) ↔ p.path = [] ∨ p.path.head? = some separator := by
  constructor
  · rintro ⟨places, h⟩
    by_cases hne : p.path = []
    · exact .inl hne
    · exact .inr (Decidable.byContradiction fun hp => not_ascent_of_relative hne hp h)
  · rintro (hp | hp)
    · -- above the empty text stands the root
      have hparent : p.parent? = some (p.moveTo [separator]) := by
        rw [parent?, if_neg (by simp [isRoot, hp]), hp]
        rfl
      exact ⟨_, .step hparent (.root (parent?_eq_none_iff.2 rfl))⟩
    · exact ⟨_, ascent_lineage hp⟩

end NamespacePath

end CodingPolicy
