/-
CodingPolicy/Proofs/Effect.lean

What a change of one place does to the whole tree.  On the way from a path up to
the root the walk passes what lies strictly below another path first, then comes
to that path and to what is above it (`NamespacePath.pathsUp_of_above`).  So what
is carried between the two decides alone whether a change at the upper one counts
at the lower one (`State.Reaches`): where it does, the lower one inherits what the
upper one does, and where it does not, the lower one inherits what it did before.

Main result: `State.effect_of_change`.
-/
import CodingPolicy.Proofs.Inheritance

namespace CodingPolicy

/-! ### Between a path and one below it -/

namespace NamespacePath

variable {a b path : Text}

theorem canonical_of_above (hc : Canonical path) (h : Above a path) : Canonical a := by
  obtain ⟨reversed, hrev, rfl⟩ := hc.exists_reversed
  exact canonical_of_mem_pathsUp hrev ((mem_pathsUp hrev).2 h)

/-- Of two paths that are above each other both are the same. -/
theorem above_antisymm (hc : Canonical b) (hab : Above a b) (hba : Above b a) : a = b := by
  have hle := (prefix_of_above hc hab).length_le
  have hge := (prefix_of_above (canonical_of_above hc hab) hba).length_le
  exact eq_of_above hc hab (.inl rfl) (Nat.le_antisymm hle hge)

/-- A path with one segment more is not above the path. -/
theorem not_above_of_concat {x : Text} {segments : List Text} (hs : ∀ y ∈ segments, Segment y)
    (hx : Segment x) : ¬ Above (ofSegments (segments ++ [x])) (ofSegments segments) := by
  intro h
  have hle := (prefix_of_above ⟨segments, hs, rfl⟩ h).length_le
  have hlt := length_ofSegments_concat hx segments
  omega

/-- **The way up from a path leads through every path above it**: first come the
paths between the two, and then the way up from the upper one. -/
theorem pathsUp_of_above {reversed : List Text} (hs : ∀ x ∈ reversed, Segment x)
    (h : Above path (ofSegments reversed.reverse)) :
    ∃ between upper, (∀ x ∈ upper, Segment x) ∧ path = ofSegments upper.reverse ∧
      pathsUp reversed = between ++ pathsUp upper ∧
      ∀ a, a ∈ between ↔ Above a (ofSegments reversed.reverse) ∧ Above path a ∧ a ≠ path := by
  induction reversed with
  | nil =>
    obtain rfl := above_root.1 h
    refine ⟨[], [], nofun, rfl, rfl, fun a => ?_⟩
    constructor
    · exact nofun
    · rintro ⟨ha, -, hne⟩
      exact absurd (above_root.1 ha) hne
  | cons x r ih =>
    have hx : Segment x := hs x (.head _)
    have hr : ∀ y ∈ r, Segment y := fun y hy => hs y (.tail _ hy)
    have hcanonical : Canonical (ofSegments (r.reverse ++ [x])) := by
      refine ⟨r.reverse ++ [x], fun y hy => hs y ?_, rfl⟩
      rw [← List.mem_reverse, List.reverse_cons]
      exact hy
    rw [List.reverse_cons] at h ⊢
    rcases (above_concat hx _).1 h with rfl | habove
    · -- the path is the upper one itself, and nothing is between
      refine ⟨[], x :: r, hs, by rw [List.reverse_cons], rfl, fun a => ?_⟩
      constructor
      · exact nofun
      · rintro ⟨ha, hpath, hne⟩
        exact absurd (above_antisymm hcanonical ha hpath) hne
    · obtain ⟨between, upper, hupper, hpath, hup, hmem⟩ := ih hr habove
      refine ⟨ofSegments (r.reverse ++ [x]) :: between, upper, hupper, hpath, ?_, fun a => ?_⟩
      · rw [pathsUp, hup, List.cons_append]
      · rw [List.mem_cons, hmem, above_concat hx]
        constructor
        · rintro (rfl | ⟨ha, hpa, hne⟩)
          · refine ⟨.inl rfl, h, ?_⟩
            rintro rfl
            exact not_above_of_concat (fun y hy => hr y (List.mem_reverse.1 hy)) hx habove
          · exact ⟨.inr ha, hpa, hne⟩
        · rintro ⟨rfl | ha, hpa, hne⟩
          · exact .inl rfl
          · exact .inr ⟨ha, hpa, hne⟩

end NamespacePath

/-! ### Where a change counts -/

namespace State

open NamespacePath

variable {s t : State} {p q : NamespacePath} {path below name : Text}

/-- What the upper path carries counts at the path below: nothing on the way
between them carries a policy of its own. -/
structure Reaches (s : State) (path below : Text) : Prop where
  /-- The upper path is the lower one or an ancestor of it. -/
  above : Above path below
  /-- No path from the lower one up to the upper one, itself apart, has a policy. -/
  free : ∀ a, Above a below → Above path a → a ≠ path → s.assignments.get? a = none

/-- The second state differs from the first in nothing but what the path carries;
the other assignments are the same, in the same order. -/
structure ChangedAt (path : Text) (s t : State) : Prop where
  /-- The known policies are the same. -/
  policies : t.policies = s.policies
  /-- The files are the same. -/
  files : t.files = s.files
  /-- The assignments of the other paths are the same, in the same order. -/
  others : Entries.erase path t.assignments.entries = Entries.erase path s.assignments.entries

/-- The other paths carry what they did. -/
theorem ChangedAt.get? (h : ChangedAt path s t) {a : Text} (ha : a ≠ path) :
    t.assignments.get? a = s.assignments.get? a := by
  have ht := Entries.get?_erase a path t.assignments.entries
  have hs := Entries.get?_erase a path s.assignments.entries
  rw [if_neg (Ne.symm ha)] at ht hs
  rw [OrderedMap.get?, OrderedMap.get?, ← ht, ← hs, h.others]

/-- A place inherits what it carries itself, or else what its parent inherits. -/
theorem inheritedName?_eq_or (hc : Canonical p.path) (s : State) :
    s.inheritedName? p = (s.assignments.get? p.path).or (p.parent?.bind s.inheritedName?) := by
  obtain ⟨reversed, hrev, hp⟩ := hc.exists_reversed
  rw [inheritedName?_eq hrev hp]
  cases reversed with
  | nil =>
    rw [parent?_root hp, hp, pathsUp, List.findSome?_singleton]
    simp
  | cons x r =>
    have hr : ∀ y ∈ r, Segment y := fun y hy => hrev y (.tail _ hy)
    rw [List.reverse_cons] at hp
    have hparent := parent?_concat (hrev x (.head _)) hp
    rw [hparent, hp, pathsUp, List.findSome?_cons, Option.bind_some, inheritedName?_eq hr rfl]
    cases s.assignments.get? (ofSegments (r.reverse ++ [x])) <;> rfl

/-- **Below a path the paths between come first, and then what the path inherits.** -/
theorem inheritedName?_of_above (hc : Canonical q.path) (h : Above p.path q.path) :
    ∃ between : List Text,
      (∀ a, a ∈ between ↔ Above a q.path ∧ Above p.path a ∧ a ≠ p.path) ∧
      ∀ s : State, s.inheritedName? q =
        (between.findSome? s.assignments.get?).or (s.inheritedName? p) := by
  obtain ⟨reversed, hrev, hq⟩ := hc.exists_reversed
  rw [hq] at h ⊢
  obtain ⟨between, upper, hupper, hp, hup, hmem⟩ := pathsUp_of_above hrev h
  refine ⟨between, hmem, fun s => ?_⟩
  rw [inheritedName?_eq hrev hq, inheritedName?_eq hupper hp, hup, List.findSome?_append]

/-- **Where the upper path counts, the lower one inherits what it inherits.** -/
theorem Reaches.inheritedName? (hc : Canonical q.path) (h : Reaches s p.path q.path) :
    s.inheritedName? q = s.inheritedName? p := by
  obtain ⟨between, hmem, heq⟩ := inheritedName?_of_above hc h.above
  have hnone : between.findSome? s.assignments.get? = none := by
    rw [List.findSome?_eq_none_iff]
    intro a ha
    obtain ⟨haq, hpa, hne⟩ := (hmem a).1 ha
    exact h.free a haq hpa hne
  rw [heq, hnone, Option.none_or]

/-- A change at the upper path does not change where it counts. -/
theorem ChangedAt.reaches (hst : ChangedAt path s t) (h : Reaches s path below) :
    Reaches t path below :=
  ⟨h.above, fun a ha hpa hne => (hst.get? hne).trans (h.free a ha hpa hne)⟩

/-- **Where the upper path does not count, a change of it leaves what is inherited.** -/
theorem ChangedAt.inheritedName?_of_not_reaches (hc : Canonical q.path)
    (hst : ChangedAt p.path s t) (h : ¬ Reaches s p.path q.path) :
    t.inheritedName? q = s.inheritedName? q := by
  by_cases habove : Above p.path q.path
  · obtain ⟨between, hmem, heq⟩ := inheritedName?_of_above hc habove
    have hget : ∀ a ∈ between, t.assignments.get? a = s.assignments.get? a :=
      fun a ha => hst.get? ((hmem a).1 ha).2.2
    -- a path between carries a policy, and it is found before the upper path
    have hsome : between.findSome? s.assignments.get? ≠ none := by
      intro hnone
      rw [List.findSome?_eq_none_iff] at hnone
      exact h ⟨habove, fun a haq hpa hne => hnone a ((hmem a).2 ⟨haq, hpa, hne⟩)⟩
    have hsame : between.findSome? t.assignments.get? = between.findSome? s.assignments.get? :=
      findSome?_congr hget
    obtain ⟨name, hname⟩ := Option.ne_none_iff_exists'.1 hsome
    rw [heq, heq, hsame, hname, Option.some_or, Option.some_or]
  · obtain ⟨reversed, hrev, hq⟩ := hc.exists_reversed
    rw [inheritedName?_eq hrev hq, inheritedName?_eq hrev hq]
    refine findSome?_congr fun a ha => hst.get? ?_
    rintro rfl
    rw [hq] at habove
    exact habove ((mem_pathsUp hrev).1 ha)

/-- The parent of a place inherits what it did, whatever becomes of the place. -/
theorem ChangedAt.inheritedName?_parent? (hc : Canonical p.path) (hst : ChangedAt p.path s t) :
    p.parent?.bind t.inheritedName? = p.parent?.bind s.inheritedName? := by
  obtain ⟨reversed, hrev, hp⟩ := hc.exists_reversed
  cases reversed with
  | nil => rw [parent?_root hp, Option.bind_none, Option.bind_none]
  | cons x r =>
    have hx : Segment x := hrev x (.head _)
    have hr : ∀ y ∈ r.reverse, Segment y := fun y hy => hrev y (.tail _ (List.mem_reverse.1 hy))
    rw [List.reverse_cons] at hp
    rw [parent?_concat hx hp, Option.bind_some, Option.bind_some]
    refine hst.inheritedName?_of_not_reaches ⟨_, hr, rfl⟩ fun h => ?_
    have habove := h.above
    rw [hp] at habove
    exact not_above_of_concat hr hx habove

/-! ### The two changes -/

/-- Setting changes what the path carries, and nothing else. -/
theorem changedAt_of_setPolicy (h : s.setPolicy p name = .ok t) : ChangedAt p.path s t := by
  obtain ⟨-, -, rfl⟩ := setPolicy_eq_ok.1 h
  exact ⟨rfl, rfl, Entries.erase_insert p.path name s.assignments.entries⟩

/-- Unsetting changes what the path carries, and nothing else. -/
theorem changedAt_of_unsetPolicy (h : s.unsetPolicy p = .ok t) : ChangedAt p.path s t := by
  obtain ⟨-, -, rfl⟩ := unsetPolicy_eq_ok.1 h
  exact ⟨rfl, rfl, Entries.erase_erase p.path s.assignments.entries⟩

/-- After a policy was set, it is inherited where the path counts. -/
theorem inheritedName?_of_setPolicy (hp : Canonical p.path) (hq : Canonical q.path)
    (h : s.setPolicy p name = .ok t) (hr : Reaches s p.path q.path) :
    t.inheritedName? q = some name := by
  have hst := changedAt_of_setPolicy h
  obtain ⟨-, -, rfl⟩ := setPolicy_eq_ok.1 h
  rw [(hst.reaches hr).inheritedName? hq, inheritedName?_eq_or hp, OrderedMap.get?_insert,
    if_pos rfl, Option.some_or]

/-- After a policy was taken away, what the parent inherits is inherited where the
path counts. -/
theorem inheritedName?_of_unsetPolicy (hp : Canonical p.path) (hq : Canonical q.path)
    (h : s.unsetPolicy p = .ok t) (hr : Reaches s p.path q.path) :
    t.inheritedName? q = p.parent?.bind s.inheritedName? := by
  have hst := changedAt_of_unsetPolicy h
  rw [(hst.reaches hr).inheritedName? hq, inheritedName?_eq_or hp,
    hst.inheritedName?_parent? hp]
  obtain ⟨-, -, rfl⟩ := unsetPolicy_eq_ok.1 h
  rw [OrderedMap.get?_erase, if_pos rfl, Option.none_or]

/-- **A policy that was set can be taken away again**, and that restores the state
just where the path carried none. -/
theorem unsetPolicy_of_setPolicy (h : s.setPolicy p name = .ok t) :
    ∃ u, t.unsetPolicy p = .ok u ∧ (u = s ↔ s.assignments.get? p.path = none) := by
  obtain ⟨-, hfile, rfl⟩ := setPolicy_eq_ok.1 h
  have hown : (s.assignments.insert p.path name).get? p.path = some name := by
    rw [OrderedMap.get?_insert, if_pos rfl]
  refine ⟨_, unsetPolicy_eq_ok.2 ⟨hfile, ⟨name, hown⟩, rfl⟩, ?_⟩
  have herase : (s.assignments.insert p.path name).erase p.path = s.assignments.erase p.path :=
    OrderedMap.ext (Entries.erase_insert p.path name s.assignments.entries)
  constructor
  · intro hu
    have hassignments : s.assignments.erase p.path = s.assignments :=
      herase.symm.trans (congrArg State.assignments hu)
    rw [← hassignments, OrderedMap.get?_erase, if_pos rfl]
  · intro hnone
    have hassignments : s.assignments.erase p.path = s.assignments :=
      OrderedMap.ext (Entries.erase_of_get? hnone)
    show State.mk s.policies ((s.assignments.insert p.path name).erase p.path) s.files = s
    rw [herase, hassignments]

/-- **What a change of one place does to the whole tree.**  After a policy was set on a
place, it is in effect wherever the place counts; after it was taken away, what was
in effect at the parent is in effect there, or nothing if the place is the root.
Everywhere else the policy in effect is what it was.  Nothing but the assignment of
the place is changed, and taking away what was set restores the state just where
the place carried nothing before. -/
theorem effect_of_change (v : Json) (s : State) (hv : ofJson v = .ok s)
    (workingDir raw workingDir' raw' : Text) (p q : NamespacePath)
    (hp : parse workingDir raw = .ok p) (hq : parse workingDir' raw' = .ok q) :
    (∀ name t, s.setPolicy p name = .ok t →
      (Reaches s p.path q.path → t.effectivePolicy q = .ok (some ⟨name⟩)) ∧
      (¬ Reaches s p.path q.path → t.effectivePolicy q = s.effectivePolicy q) ∧
      ChangedAt p.path s t ∧
      ∃ u, t.unsetPolicy p = .ok u ∧ (u = s ↔ s.assignments.get? p.path = none)) ∧
    ∀ t, s.unsetPolicy p = .ok t →
      (Reaches s p.path q.path →
        t.effectivePolicy q = p.parent?.elim (.ok none) s.effectivePolicy) ∧
      (¬ Reaches s p.path q.path → t.effectivePolicy q = s.effectivePolicy q) ∧
      ChangedAt p.path s t := by
  have hs : s.Valid := valid_of_ofJson hv
  have hpc : Canonical p.path := canonical_of_parse hp
  have hqc : Canonical q.path := canonical_of_parse hq
  constructor
  · intro name t h
    have ht : t.Valid := hs.setPolicy hpc.head? h
    have hst := changedAt_of_setPolicy h
    refine ⟨fun hr => ?_, fun hr => ?_, hst, unsetPolicy_of_setPolicy h⟩
    · rw [ht.effectivePolicy, inheritedName?_of_setPolicy hpc hqc h hr]
      rfl
    · rw [ht.effectivePolicy, hs.effectivePolicy, hst.inheritedName?_of_not_reaches hqc hr]
  · intro t h
    have ht : t.Valid := hs.unsetPolicy h
    have hst := changedAt_of_unsetPolicy h
    refine ⟨fun hr => ?_, fun hr => ?_, hst⟩
    · rw [ht.effectivePolicy, inheritedName?_of_unsetPolicy hpc hqc h hr]
      cases p.parent? with
      | none => rfl
      | some parent => exact (hs.effectivePolicy parent).symm
    · rw [ht.effectivePolicy, hs.effectivePolicy, hst.inheritedName?_of_not_reaches hqc hr]

/-- Where the policy of a path is replaced, the new one is in effect below it; where
it is taken away, the one of the root is. -/
theorem effect_of_change_below :
    let s : State :=
      { assignments := .ofList
          [("/".text, "RS-3-2-1024k".text), ("/a".text, "XOR-2-1-1024k".text)] }
    let p : NamespacePath := ⟨"/a".text, [], []⟩
    let q : NamespacePath := ⟨"/a/b".text, "ecfs".text, "h".text⟩
    Reaches s p.path q.path ∧
      (∃ t, s.setPolicy p "RS-6-3-1024k".text = .ok t ∧
        t.effectivePolicy q = .ok (some ⟨"RS-6-3-1024k".text⟩)) ∧
      ∃ t, s.unsetPolicy p = .ok t ∧ t.effectivePolicy q = .ok (some ⟨"RS-3-2-1024k".text⟩) := by
  intro s p q
  have heffect := effect_of_change s.toJson s (by rfl) "/".text "/a".text "/".text
    "ecfs://h/a/b".text p q (by rfl) (by rfl)
  have hreaches : Reaches s p.path q.path := by
    refine ⟨.inr (.inr ⟨by decide, by decide⟩), fun a _ hpa hne => ?_⟩
    have hroot : "/".text ≠ a := by
      rintro rfl
      rcases hpa with h | h | ⟨-, h⟩ <;> revert h <;> decide
    show Entries.get? a [("/".text, "RS-3-2-1024k".text), ("/a".text, _)] = none
    rw [Entries.get?, if_neg hroot, Entries.get?, if_neg (Ne.symm hne), Entries.get?]
  exact ⟨hreaches, ⟨_, rfl, (heffect.1 _ _ rfl).1 hreaches⟩, _, rfl, (heffect.2 _ rfl).1 hreaches⟩

end State

end CodingPolicy
