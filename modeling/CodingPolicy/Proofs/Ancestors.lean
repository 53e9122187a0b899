/-
CodingPolicy/Proofs/Ancestors.lean

The walk from a place up to the root, without the walk.  A canonical path has
an ancestor before each of its separators, and that is all that the nearest
ancestor with some property depends on: `Above` speaks of texts alone.

Main results: `State.nearest_of_inheritedName?` and
`State.none_of_inheritedName?`, which say in these terms what name a place
inherits.
-/
import CodingPolicy.Namespace.Service
import CodingPolicy.Proofs.Ascent

namespace CodingPolicy

/-! ### Texts with a last separator -/

namespace Text

variable {sep : CodePoint} {a o x : Text}

/-- What ends before a separator of a text ends before the last one, or is what
stands before the last one. -/
theorem append_prefix_iff (hx : sep ∉ x) :
    a ++ [sep] <+: o ++ sep :: x ↔ a = o ∨ a ++ [sep] <+: o := by
  constructor
  · intro h
    by_cases hl : (a ++ [sep]).length ≤ o.length
    · exact .inr (List.prefix_of_prefix_length_le h (List.prefix_append o _) hl)
    · left
      have ha : a <+: o ++ sep :: x := (List.prefix_append a [sep]).trans h
      have ho : o <+: a := by
        refine List.prefix_of_prefix_length_le (List.prefix_append o _) ha ?_
        rw [List.length_append, List.length_singleton] at hl
        omega
      obtain ⟨b, rfl⟩ := ho
      rw [List.append_assoc, List.prefix_append_right_inj] at h
      cases b with
      | nil => simp
      | cons c b =>
        -- a separator after the last one would stand in the last segment
        rw [List.cons_append, List.cons_prefix_cons] at h
        exact absurd (h.2.subset (by simp)) hx
  · rintro (rfl | h)
    · exact ⟨x, by simp⟩
    · exact h.trans (List.prefix_append o _)

end Text

/-! ### Ancestors of canonical paths -/

namespace NamespacePath

/-- The first path is the second or an ancestor of it: the root, or what ends
before one of its separators. -/
def Above (a q : Text) : Prop :=
  a = q ∨ a = [separator] ∨ a ≠ [] ∧ a ++ [separator] <+: q

/-- What stands before the last separator of a path with one segment more. -/
def stem (segments : List Text) : Text :=
  if segments = [] then [] else ofSegments segments

theorem ofSegments_concat (segments : List Text) (x : Text) :
    ofSegments (segments ++ [x]) = stem segments ++ separator :: x := by
  unfold ofSegments stem
  rw [Text.joinWith_concat]
  split
  · rfl
  · simp [ofSegments]

theorem parent?_root {p : NamespacePath} (hp : p.path = ofSegments []) : p.parent? = none := by
  have : p.isRoot = true := by
    rw [isRoot, hp]
    rfl
  rw [parent?, if_pos this]

/-- One step up takes the last segment away. -/
theorem parent?_concat {p : NamespacePath} {segments : List Text} {x : Text} (hx : Segment x)
    (hp : p.path = ofSegments (segments ++ [x])) :
    p.parent? = some (p.moveTo (ofSegments segments)) := by
  have hpath : p.path = stem segments ++ separator :: x := hp.trans (ofSegments_concat segments x)
  have hroot : p.path ≠ [separator] := by
    intro he
    have hlength := congrArg List.length (hpath.symm.trans he)
    have hpos : 0 < x.length := List.length_pos_iff.2 hx.ne_nil
    rw [List.length_append, List.length_cons, List.length_singleton] at hlength
    omega
  have habove : (if stem segments = [] then [separator] else stem segments) =
      ofSegments segments := by
    unfold stem
    split
    · next h =>
      subst h
      rfl
    · rfl
  rw [parent?_append hx.no_separator hpath hroot, habove]

/-- The paths from a place up to the root, its segments given from the last to the first. -/
def pathsUp : List Text → List Text
  | [] => [ofSegments []]
  | x :: r => ofSegments (r.reverse ++ [x]) :: pathsUp r

/-- **The walk from a canonical path takes one segment away at each step.** -/
theorem ascent_pathsUp {reversed : List Text} (hs : ∀ x ∈ reversed, Segment x)
    (hp : p.path = ofSegments reversed.reverse) : Ascent p ((pathsUp reversed).map p.moveTo) := by
  induction reversed generalizing p with
  | nil =>
    have hself : p.moveTo (ofSegments []) = p := by rw [← List.reverse_nil, ← hp]; rfl
    rw [pathsUp, List.map_singleton, hself]
    exact .root (parent?_root hp)
  | cons x r ih =>
    rw [List.reverse_cons] at hp
    have hself : p.moveTo (ofSegments (r.reverse ++ [x])) = p := by rw [← hp]; rfl
    rw [pathsUp, List.map_cons, hself]
    refine .step (parent?_concat (hs x (.head _)) hp) ?_
    exact ih (p := p.moveTo (ofSegments r.reverse)) (fun y hy => hs y (.tail _ hy)) rfl

theorem length_stem_le (segments : List Text) :
    (stem segments).length ≤ (ofSegments segments).length ∧
      (ofSegments segments).length ≤ (stem segments).length + 1 := by
  unfold stem
  split
  · next h =>
    subst h
    exact ⟨Nat.zero_le _, Nat.le_refl _⟩
  · exact ⟨Nat.le_refl _, Nat.le_succ _⟩

/-- One segment more makes a path longer. -/
theorem length_ofSegments_concat {x : Text} (hx : Segment x) (segments : List Text) :
    (ofSegments segments).length < (ofSegments (segments ++ [x])).length := by
  have hpos : 0 < x.length := List.length_pos_iff.2 hx.ne_nil
  have := (length_stem_le segments).2
  rw [ofSegments_concat, List.length_append, List.length_cons]
  omega

/-- A place and its ancestors have these paths. -/
theorem map_path_lineage {reversed : List Text} (hs : ∀ x ∈ reversed, Segment x)
    {p : NamespacePath} (hp : p.path = ofSegments reversed.reverse) :
    p.lineage.map path = pathsUp reversed := by
  have habsolute : p.path.head? = some separator := by rw [hp]; rfl
  rw [(ascent_lineage habsolute).unique (ascent_pathsUp hs hp), List.map_map]
  exact List.map_id _

/-! ### The paths above a path -/

theorem above_root {a : Text} : Above a (ofSegments []) ↔ a = ofSegments [] := by
  constructor
  · rintro (rfl | rfl | ⟨hne, h⟩)
    · rfl
    · rfl
    · have := h.length_le
      rw [List.length_append] at this
      exact absurd (List.eq_nil_of_length_eq_zero (by simpa [ofSegments, Text.joinWith] using this))
        hne
  · rintro rfl
    exact .inl rfl

/-- Above a path with one segment more is that path, and what is above the path. -/
theorem above_concat {a x : Text} (hx : Segment x) (segments : List Text) :
    Above a (ofSegments (segments ++ [x])) ↔
      a = ofSegments (segments ++ [x]) ∨ Above a (ofSegments segments) := by
  unfold Above
  rw [ofSegments_concat, Text.append_prefix_iff hx.no_separator]
  unfold stem
  split
  · next h =>
    -- below the root, what stands before the last separator is no path
    subst h
    constructor
    · rintro (h | h | ⟨hne, h | h⟩)
      · exact .inl h
      · exact .inr (.inl h)
      · exact absurd h hne
      · exact absurd (List.prefix_nil.1 h) (by simp)
    · rintro (h | h | h | ⟨hne, h⟩)
      · exact .inl h
      · exact .inr (.inl h)
      · exact .inr (.inl h)
      · exact .inr (.inl (above_root.1 (.inr (.inr ⟨hne, h⟩))))
  · constructor
    · rintro (h | h | ⟨hne, h | h⟩)
      · exact .inl h
      · exact .inr (.inr (.inl h))
      · exact .inr (.inl h)
      · exact .inr (.inr (.inr ⟨hne, h⟩))
    · rintro (h | h | h | ⟨hne, h⟩)
      · exact .inl h
      · exact .inr (.inr ⟨by simp [h, ofSegments], .inl h⟩)
      · exact .inr (.inl h)
      · exact .inr (.inr ⟨hne, .inr h⟩)

/-- The paths from a place up to the root are those above its own. -/
theorem mem_pathsUp {reversed : List Text} (hs : ∀ x ∈ reversed, Segment x) {a : Text} :
    a ∈ pathsUp reversed ↔ Above a (ofSegments reversed.reverse) := by
  induction reversed with
  | nil => exact List.mem_singleton.trans above_root.symm
  | cons x r ih =>
    rw [pathsUp, List.mem_cons, ih fun y hy => hs y (.tail _ hy), List.reverse_cons,
      above_concat (hs x (.head _))]

theorem length_le_of_above {reversed : List Text} (hs : ∀ x ∈ reversed, Segment x) {a : Text}
    (h : Above a (ofSegments reversed.reverse)) :
    a.length ≤ (ofSegments reversed.reverse).length := by
  induction reversed with
  | nil => exact Nat.le_of_eq (congrArg List.length (above_root.1 h))
  | cons x r ih =>
    rw [List.reverse_cons] at h ⊢
    rcases (above_concat (hs x (.head _)) _).1 h with rfl | h
    · exact Nat.le_refl _
    · have := ih (fun y hy => hs y (.tail _ hy)) h
      have := length_ofSegments_concat (hs x (.head _)) r.reverse
      omega

/-- **The first of the paths up to the root with some value is the longest.** -/
theorem longest_of_findSome? {α : Type} {f : Text → Option α} {reversed : List Text}
    (hs : ∀ x ∈ reversed, Segment x) {v : α} (h : (pathsUp reversed).findSome? f = some v) :
    ∃ a, Above a (ofSegments reversed.reverse) ∧ f a = some v ∧
      ∀ b, Above b (ofSegments reversed.reverse) → f b ≠ none → b.length ≤ a.length := by
  induction reversed with
  | nil =>
    rw [pathsUp, List.findSome?_singleton] at h
    refine ⟨_, .inl rfl, h, fun b hb _ => ?_⟩
    exact Nat.le_of_eq (congrArg List.length (above_root.1 hb))
  | cons x r ih =>
    have hr : ∀ y ∈ r, Segment y := fun y hy => hs y (.tail _ hy)
    rw [pathsUp, List.findSome?_cons] at h
    rw [List.reverse_cons]
    rcases e : f (ofSegments (r.reverse ++ [x])) with - | v'
    · -- the path itself has no value, so what is above it decides
      rw [e] at h
      obtain ⟨a, ha, hv, hmax⟩ := ih hr h
      refine ⟨a, (above_concat (hs x (.head _)) _).2 (.inr ha), hv, fun b hb hne => ?_⟩
      rcases (above_concat (hs x (.head _)) _).1 hb with rfl | hb
      · exact absurd e hne
      · exact hmax b hb hne
    · rw [e] at h
      cases h
      refine ⟨_, .inl rfl, e, fun b hb _ => ?_⟩
      rw [← List.reverse_cons] at hb ⊢
      exact length_le_of_above hs hb

end NamespacePath

/-! ### Inherited names -/

namespace State

open NamespacePath

variable {s : State} {p : NamespacePath}

theorem inheritedName?_eq {reversed : List Text} (hs : ∀ x ∈ reversed, Segment x)
    (hp : p.path = ofSegments reversed.reverse) :
    s.inheritedName? p = (pathsUp reversed).findSome? s.assignments.get? := by
  rw [← map_path_lineage hs hp, List.findSome?_map]
  rfl

/-- **An inherited name is carried by the nearest path that carries one.** -/
theorem nearest_of_inheritedName? (hc : Canonical p.path) {name : Text}
    (h : s.inheritedName? p = some name) :
    ∃ a, Above a p.path ∧ s.assignments.get? a = some name ∧
      ∀ b, Above b p.path → s.assignments.get? b ≠ none → b.length ≤ a.length := by
  obtain ⟨reversed, hrev, hp⟩ := hc.exists_reversed
  rw [inheritedName?_eq hrev hp] at h
  rw [hp]
  exact longest_of_findSome? hrev h

/-- **Without an inherited name, no path up to the root carries one.** -/
theorem none_of_inheritedName? (hc : Canonical p.path) (h : s.inheritedName? p = none) {a : Text}
    (ha : Above a p.path) : s.assignments.get? a = none := by
  obtain ⟨reversed, hrev, hp⟩ := hc.exists_reversed
  rw [inheritedName?_eq hrev hp, List.findSome?_eq_none_iff] at h
  rw [hp] at ha
  exact h a ((mem_pathsUp hrev).2 ha)

end State

end CodingPolicy
