/-
CodingPolicy/Proofs/Inheritance.lean

The policy in effect, told by the assignments alone.  A key *covers* a path if
it is the root, the path itself, or what the path goes on behind; among the
keys that cover a path no two have the same length, and the longest of them
decides.  On canonical paths and absolute keys to cover is to be `Above`
(`NamespacePath.covers_iff_above`), so that the walk up to the root, which
looks at one ancestor after the other, finds just this key
(`State.inheritedName?_eq_some_iff`).

Main result: `State.effectivePolicy_of_longest`.
-/
import CodingPolicy.Proofs.Ancestors
import CodingPolicy.Proofs.Form

namespace CodingPolicy

/-! ### Keys that cover a path -/

namespace NamespacePath

variable {a b k path : Text}

/-- The key covers the path: it is the root, the path itself, or the path goes
on behind it with a separator, which is not there yet. -/
def Covers (k path : Text) : Prop :=
  k = [separator] ∨ k = path ∨ k ++ [separator] <+: path ∧ k.getLast? ≠ some separator

instance (k path : Text) : Decidable (Covers k path) :=
  inferInstanceAs (Decidable (_ ∨ _ ∨ _ ∧ _))

/-- A path with a segment does not end with a separator. -/
theorem getLast?_ofSegments_concat (segments : List Text) {x : Text} (hx : Segment x) :
    (ofSegments (segments ++ [x])).getLast? ≠ some separator := by
  rw [ofSegments_concat]
  have hlast : (stem segments ++ separator :: x).getLast? = x.getLast? := by
    rw [List.getLast?_append, List.getLast?_cons, List.getLast?_eq_some_getLast hx.ne_nil]
    rfl
  rw [hlast]
  intro h
  exact hx.no_separator (List.mem_of_getLast? h)

/-- The paths up to the root are canonical. -/
theorem canonical_of_mem_pathsUp {reversed : List Text} (hs : ∀ x ∈ reversed, Segment x)
    (h : a ∈ pathsUp reversed) : Canonical a := by
  induction reversed with
  | nil => exact ⟨[], nofun, List.mem_singleton.1 h⟩
  | cons x r ih =>
    rcases List.mem_cons.1 h with rfl | h
    · refine ⟨r.reverse ++ [x], fun y hy => hs y ?_, rfl⟩
      rw [← List.mem_reverse, List.reverse_cons]
      exact hy
    · exact ih (fun y hy => hs y (.tail _ hy)) h

/-- Of the paths up to the root only the root ends with a separator. -/
theorem getLast?_of_mem_pathsUp {reversed : List Text} (hs : ∀ x ∈ reversed, Segment x)
    (h : a ∈ pathsUp reversed) : a = [separator] ∨ a.getLast? ≠ some separator := by
  induction reversed with
  | nil => exact .inl (List.mem_singleton.1 h)
  | cons x r ih =>
    rcases List.mem_cons.1 h with rfl | h
    · exact .inr (getLast?_ofSegments_concat r.reverse (hs x (.head _)))
    · exact ih (fun y hy => hs y (.tail _ hy)) h

/-- **An absolute key covers a canonical path just where it is above it.** -/
theorem covers_iff_above (hc : Canonical path) (hk : k.head? = some (.char '/')) :
    Covers k path ↔ Above k path := by
  constructor
  · rintro (rfl | rfl | ⟨h, -⟩)
    · exact .inr (.inl rfl)
    · exact .inl rfl
    · -- an absolute key is not empty; the empty one would stand before every path
      refine .inr (.inr ⟨?_, h⟩)
      rintro rfl
      cases hk
  · intro h
    obtain ⟨reversed, hrev, rfl⟩ := hc.exists_reversed
    have hup : k ∈ pathsUp reversed := (mem_pathsUp hrev).2 h
    rcases h with rfl | rfl | ⟨-, h⟩
    · exact .inr (.inl rfl)
    · exact .inl rfl
    · rcases getLast?_of_mem_pathsUp hrev hup with hroot | hlast
      · exact .inl hroot
      · exact .inr (.inr ⟨h, hlast⟩)

theorem prefix_of_above (hc : Canonical path) (h : Above a path) : a <+: path := by
  obtain ⟨segments, -, rfl⟩ := hc
  rcases h with rfl | rfl | ⟨-, h⟩
  · exact List.prefix_refl _
  · exact List.prefix_append [separator] _
  · exact (List.prefix_append a [separator]).trans h

/-- The paths above a path are told apart by their lengths. -/
theorem eq_of_above (hc : Canonical path) (ha : Above a path) (hb : Above b path)
    (hl : a.length = b.length) : a = b := by
  have hab : a <+: b := List.prefix_of_prefix_length_le (prefix_of_above hc ha)
    (prefix_of_above hc hb) (Nat.le_of_eq hl)
  exact hab.eq_of_length hl

end NamespacePath

/-- The first value in a list depends on the values of its items alone. -/
theorem findSome?_congr {α β : Type} {f g : α → Option β} {l : List α}
    (h : ∀ a ∈ l, f a = g a) : l.findSome? f = l.findSome? g := by
  induction l with
  | nil => rfl
  | cons a l ih =>
    rw [List.findSome?_cons, List.findSome?_cons, h a (.head _), ih fun b hb => h b (.tail _ hb)]

/-! ### The longest key -/

namespace State

open NamespacePath

variable {s t : State} {p q : NamespacePath} {k name : Text}

/-- The key is the longest of the assignments that cover the path. -/
structure Longest (s : State) (path k : Text) : Prop where
  /-- There is an assignment at the key. -/
  mem : k ∈ s.assignments.keys
  /-- The key covers the path. -/
  covers : Covers k path
  /-- Every other key that covers the path is shorter. -/
  longest : ∀ j ∈ s.assignments.keys, Covers j path → j ≠ k → j.length < k.length

/-- The keys of a state that keeps the rules are absolute. -/
theorem Valid.absolute (hs : s.Valid) (hk : k ∈ s.assignments.keys) :
    k.head? = some (.char '/') := by
  obtain ⟨e, he, rfl⟩ := List.mem_map.1 hk
  exact (hs.assignments e he).1

/-- **Nothing is inherited just where no key covers the path.** -/
theorem inheritedName?_eq_none_iff (hs : s.Valid) (hc : Canonical p.path) :
    s.inheritedName? p = none ↔ ∀ k ∈ s.assignments.keys, ¬ Covers k p.path := by
  constructor
  · intro h k hk hcov
    obtain ⟨name, hname⟩ := OrderedMap.mem_keys_iff.1 hk
    have habove := (covers_iff_above hc (hs.absolute hk)).1 hcov
    cases hname.symm.trans (none_of_inheritedName? hc h habove)
  · intro h
    rcases e : s.inheritedName? p with - | name
    · rfl
    · obtain ⟨a, ha, hname, -⟩ := nearest_of_inheritedName? hc e
      have hk : a ∈ s.assignments.keys := OrderedMap.mem_keys_iff.2 ⟨name, hname⟩
      exact absurd ((covers_iff_above hc (hs.absolute hk)).2 ha) (h a hk)

/-- **A name is inherited just where the longest key carries it.** -/
theorem inheritedName?_eq_some_iff (hs : s.Valid) (hc : Canonical p.path) :
    s.inheritedName? p = some name ↔
      ∃ k, Longest s p.path k ∧ s.assignments.get? k = some name := by
  constructor
  · intro h
    obtain ⟨a, ha, hname, hmax⟩ := nearest_of_inheritedName? hc h
    have hk : a ∈ s.assignments.keys := OrderedMap.mem_keys_iff.2 ⟨name, hname⟩
    refine ⟨a, ⟨hk, (covers_iff_above hc (hs.absolute hk)).2 ha, fun j hj hcov hne => ?_⟩, hname⟩
    -- the nearest has no shorter length, and another of its length would be itself
    have hj' := (covers_iff_above hc (hs.absolute hj)).1 hcov
    obtain ⟨other, hother⟩ := OrderedMap.mem_keys_iff.1 hj
    have hle : j.length ≤ a.length := hmax j hj' (by rw [hother]; exact nofun)
    exact Nat.lt_of_le_of_ne hle fun hl => hne (eq_of_above hc hj' ha hl)
  · rintro ⟨k, hk, hname⟩
    rcases e : s.inheritedName? p with - | name'
    · exact absurd hk.covers ((inheritedName?_eq_none_iff hs hc).1 e k hk.mem)
    · obtain ⟨a, ha, hname', hmax⟩ := nearest_of_inheritedName? hc e
      have hka : a = k := by
        refine Decidable.byContradiction fun hne => ?_
        have hmem : a ∈ s.assignments.keys := OrderedMap.mem_keys_iff.2 ⟨name', hname'⟩
        have hlt := hk.longest a hmem ((covers_iff_above hc (hs.absolute hmem)).2 ha) hne
        have hle := hmax k ((covers_iff_above hc (hs.absolute hk.mem)).1 hk.covers)
          (by rw [hname]; exact nofun)
        omega
      subst hka
      rw [← hname', hname]

/-- What is inherited depends on the path and on what the canonical keys carry, and on
nothing else. -/
theorem inheritedName?_congr_of_canonical (hc : Canonical p.path) (hpath : q.path = p.path)
    (hget : ∀ k, Canonical k → t.assignments.get? k = s.assignments.get? k) :
    t.inheritedName? q = s.inheritedName? p := by
  obtain ⟨reversed, hrev, hp⟩ := hc.exists_reversed
  rw [inheritedName?_eq hrev hp, inheritedName?_eq hrev (hpath.trans hp)]
  exact findSome?_congr fun a ha => hget a (canonical_of_mem_pathsUp hrev ha)

/-- What is inherited depends on the path and on what the keys carry, and on nothing else. -/
theorem inheritedName?_congr (hc : Canonical p.path) (hpath : q.path = p.path)
    (hget : ∀ k, t.assignments.get? k = s.assignments.get? k) :
    t.inheritedName? q = s.inheritedName? p :=
  inheritedName?_congr_of_canonical hc hpath fun k _ => hget k

/-- **The policy in effect is the one at the longest key that covers the path.**
Where no key covers it there is none, and otherwise there is one, of the name
that this key carries.  The scheme and the authority of the place, the list of
the known policies and the order of the assignments have no part in it. -/
theorem effectivePolicy_of_longest (v : Json) (s : State) (hv : ofJson v = .ok s)
    (workingDir raw : Text) (p : NamespacePath) (hp : parse workingDir raw = .ok p) :
    (∃ inEffect, s.effectivePolicy p = .ok inEffect) ∧
    (s.effectivePolicy p = .ok none ↔ ∀ k ∈ s.assignments.keys, ¬ Covers k p.path) ∧
    (∀ policy, s.effectivePolicy p = .ok (some policy) ↔
      ∃ k, Longest s p.path k ∧ s.assignments.get? k = some policy.name) ∧
    ∀ w t q, ofJson w = .ok t → t.assignments.entries.Perm s.assignments.entries →
      q.path = p.path → t.effectivePolicy q = s.effectivePolicy p := by
  have hs : s.Valid := valid_of_ofJson hv
  have hc : Canonical p.path := canonical_of_parse hp
  have heff := hs.effectivePolicy p
  refine ⟨⟨_, heff⟩, ?_, fun policy => ?_, fun w t q hw hperm hpath => ?_⟩
  · rw [heff, ← inheritedName?_eq_none_iff hs hc]
    simp
  · rw [heff, ← inheritedName?_eq_some_iff hs hc]
    obtain ⟨name⟩ := policy
    simp
  · have hinherited : t.inheritedName? q = s.inheritedName? p :=
      inheritedName?_congr hc hpath (OrderedMap.get?_eq_of_perm hperm)
    rw [heff, (valid_of_ofJson hw).effectivePolicy q, hinherited]

/-- A policy that is no longer known is in effect below a path, and not below a
sibling whose name starts in the same way. -/
theorem effectivePolicy_of_longest_below :
    let s : State :=
      { assignments := .ofList [("/a".text, "gone".text), ("/ab".text, "XOR".text)] }
    s.effectivePolicy ⟨"/a/b".text, "ecfs".text, "h".text⟩ = .ok (some ⟨"gone".text⟩) := by
  intro s
  refine ((effectivePolicy_of_longest s.toJson s (by rfl) "/".text "ecfs://h/a/b".text _
    (by rfl)).2.2.1 _).2 ⟨"/a".text, ⟨by decide, by decide, ?_⟩, by rfl⟩
  intro j hj hcov hne
  have hj : j ∈ ["/a".text, "/ab".text] := hj
  simp only [List.mem_cons, List.not_mem_nil, or_false] at hj
  rcases hj with rfl | rfl
  · exact absurd rfl hne
  · exact absurd hcov (by decide)

end State

end CodingPolicy
