/-
CodingPolicy/Proofs/StoredPaths.lean

Paths that stand in a state, and the service that is asked for them.  The rules
on a state ask no more of its paths than that they are absolute; the service
looks under canonical paths alone.  An assignment is therefore honoured just
where its key is canonical and can be read as a path (`State.honoured_iff`);
any other key is out of reach, for no path that is read leads to it
(`State.outOfReach_of_not_canonical`).  A stored file is exempt from policies
just where its text is read as the path of some stored file
(`State.exempt_iff`).

Main result: `State.stored_paths`.
-/
import CodingPolicy.Proofs.Inheritance
import CodingPolicy.Proofs.Refinement
import CodingPolicy.Proofs.Spelling

namespace CodingPolicy

namespace State

open NamespacePath

variable {s t : State} {p : NamespacePath} {workingDir k f name : Text}

/-! ### What is asked of a stored path -/

/-- The state was accepted, be it from its JSON form or from a file. -/
inductive Accepted (s : State) : Prop
  /-- The state was read from its JSON form. -/
  | read {v : Json} (h : ofJson v = .ok s)
  /-- The state was loaded from a file. -/
  | loaded {d : Disk} {file : FilePath} (h : Store.load d file = .ok s)

theorem Accepted.valid (h : s.Accepted) : s.Valid := by
  cases h with
  | read h => exact valid_of_ofJson h
  | loaded h => exact Store.valid_of_load h

/-- The assignment of a name at a key is honoured: the key is read as a place,
the name is in effect there, and taking the policy away from there takes away
this assignment and no other. -/
def Honoured (workingDir : Text) (s : State) (k name : Text) : Prop :=
  ∃ p, parse workingDir k = .ok p ∧ s.effectivePolicy p = .ok (some ⟨name⟩) ∧
    s.unsetPolicy p = .ok { s with assignments := s.assignments.erase k }

/-- A stored file is exempt from policies: its text is read as a place, and the
place is refused as that of a file, whichever known policy is to be set on it
and also when one is to be taken away. -/
def Exempt (workingDir : Text) (s : State) (f : Text) : Prop :=
  ∃ p, parse workingDir f = .ok p ∧
    (∀ policy ∈ s.known,
      s.setPolicy p policy.name = .error (.service (.ineligible (.setOnFile p.path)))) ∧
    s.unsetPolicy p = .error (.service (.ineligible (.unsetOnFile p.path)))

/-- A key is out of reach: whatever is read as a path, the policy in effect
there is the same without the key, and no change there touches the key. -/
structure OutOfReach (workingDir : Text) (s : State) (k : Text) : Prop where
  /-- The key has no part in any policy in effect. -/
  unseen : ∀ raw p, parse workingDir raw = .ok p →
    s.effectivePolicy p =
      ({ s with assignments := s.assignments.erase k } : State).effectivePolicy p
  /-- No policy that is set touches the key. -/
  stays_set : ∀ raw p name t, parse workingDir raw = .ok p → s.setPolicy p name = .ok t →
    t.assignments.get? k = s.assignments.get? k
  /-- No policy that is taken away is that of the key. -/
  stays_unset : ∀ raw p t, parse workingDir raw = .ok p → s.unsetPolicy p = .ok t →
    t.assignments.get? k = s.assignments.get? k

/-! ### Assignments -/

/-- A place inherits what it carries itself. -/
theorem inheritedName?_of_own (h : s.assignments.get? p.path = some name) :
    s.inheritedName? p = some name := by
  rw [inheritedName?, lineage, lineageWithin, List.findSome?_cons, h]

/-- **An assignment is honoured just where its key is canonical and holds no NUL.** -/
theorem honoured_iff (hs : s.Valid) (hk : s.assignments.get? k = some name) (hf : k ∉ s.files) :
    Honoured workingDir s k name ↔ Canonical k ∧ .char '\x00' ∉ k := by
  constructor
  · rintro ⟨p, hp, -, hu⟩
    -- what was taken away stood at the path that was read, so that path is the key
    have herase : s.assignments.erase k = s.assignments.erase p.path := by
      obtain ⟨-, -, ht⟩ := unsetPolicy_eq_ok.1 hu
      exact congrArg assignments ht
    have hpath : p.path = k := by
      refine Decidable.byContradiction fun hne => ?_
      have hgone : (s.assignments.erase k).get? k = none := by
        rw [OrderedMap.get?_erase, if_pos rfl]
      rw [herase, OrderedMap.get?_erase, if_neg hne, hk] at hgone
      cases hgone
    exact ⟨hpath ▸ canonical_of_parse hp, (parse_eq_ok hp).1⟩
  · rintro ⟨hc, hn⟩
    refine ⟨⟨k, [], []⟩, parse_of_canonical hc hn workingDir, ?_, ?_⟩
    · rw [hs.effectivePolicy, inheritedName?_of_own hk]
      rfl
    · exact unsetPolicy_eq_ok.2 ⟨hf, ⟨name, hk⟩, rfl⟩

/-- **A key that is not canonical is out of reach.** -/
theorem outOfReach_of_not_canonical (hs : s.Valid) (hc : ¬ Canonical k) :
    OutOfReach workingDir s k := by
  have hne : ∀ {path : Text}, Canonical path → path ≠ k := by
    rintro path hpath rfl
    exact hc hpath
  constructor
  case unseen =>
    intro raw p hp
    have hv : ({ s with assignments := s.assignments.erase k } : State).Valid :=
      ⟨hs.policies, fun e he => hs.assignments e (List.mem_filter.1 he).1, hs.files⟩
    have hget : ∀ j, Canonical j → s.assignments.get? j = (s.assignments.erase k).get? j := by
      intro j hj
      rw [OrderedMap.get?_erase, if_neg (Ne.symm (hne hj))]
    have hinherited : s.inheritedName? p =
        ({ s with assignments := s.assignments.erase k } : State).inheritedName? p :=
      inheritedName?_congr_of_canonical (canonical_of_parse hp) rfl hget
    rw [hs.effectivePolicy, hv.effectivePolicy, hinherited]
  case stays_set =>
    intro raw p name t hp ht
    obtain ⟨-, -, rfl⟩ := setPolicy_eq_ok.1 ht
    exact (OrderedMap.get?_insert ..).trans (if_neg (hne (canonical_of_parse hp)))
  case stays_unset =>
    intro raw p t hp ht
    obtain ⟨-, -, rfl⟩ := unsetPolicy_eq_ok.1 ht
    exact (OrderedMap.get?_erase ..).trans (if_neg (hne (canonical_of_parse hp)))

/-! ### Files -/

/-- A stored file is refused for every known policy, and nothing is taken from it. -/
theorem refused_of_mem_files (h : p.path ∈ s.files) :
    (∀ policy ∈ s.known,
      s.setPolicy p policy.name = .error (.service (.ineligible (.setOnFile p.path)))) ∧
    s.unsetPolicy p = .error (.service (.ineligible (.unsetOnFile p.path))) := by
  constructor
  · intro policy hp
    have hk : policy.name ∈ s.policyNames := mem_policyNames_iff.2 ⟨policy, hp, rfl⟩
    exact setPolicy_eq_error.2 ⟨_, .setOnFile hk h, rfl⟩
  · exact unsetPolicy_eq_error.2 ⟨_, .unsetOnFile h, rfl⟩

theorem mem_files_of_unsetPolicy
    (h : s.unsetPolicy p = .error (.service (.ineligible (.unsetOnFile p.path)))) :
    p.path ∈ s.files := by
  obtain ⟨cause, hcause, he⟩ := unsetPolicy_eq_error.1 h
  cases he
  cases hcause with
  | unsetOnFile hf => exact hf

/-- **A file is exempt just where its text is read as the path of a stored file.** -/
theorem exempt_iff :
    Exempt workingDir s f ↔ ∃ p, parse workingDir f = .ok p ∧ p.path ∈ s.files := by
  constructor
  · rintro ⟨p, hp, -, hu⟩
    exact ⟨p, hp, mem_files_of_unsetPolicy hu⟩
  · rintro ⟨p, hp, hf⟩
    exact ⟨p, hp, refused_of_mem_files hf⟩

/-! ### Main result -/

/-- **What becomes of the paths of an accepted state.**  An assignment is
honoured just where its key is canonical and holds no NUL, and a key that is
not canonical can be neither seen nor removed through any path that is read.  A
file is exempt from policies if its text is canonical and holds no NUL, and in
general just where the text is read as the path of a stored file. -/
theorem stored_paths (workingDir : Text) (s : State) (hs : s.Accepted) :
    (∀ k name, s.assignments.get? k = some name → k ∉ s.files →
      (Honoured workingDir s k name ↔ Canonical k ∧ .char '\x00' ∉ k)) ∧
    (∀ k, ¬ Canonical k → OutOfReach workingDir s k) ∧
    (∀ f ∈ s.files, Canonical f → .char '\x00' ∉ f → Exempt workingDir s f) ∧
    ∀ f ∈ s.files, Exempt workingDir s f ↔
      ∃ p, parse workingDir f = .ok p ∧ p.path ∈ s.files := by
  have hv : s.Valid := hs.valid
  refine ⟨fun k name hk hf => honoured_iff hv hk hf,
    fun k hc => outOfReach_of_not_canonical hv hc, fun f hf hc hn => ?_, fun f _ => exempt_iff⟩
  exact exempt_iff.2 ⟨⟨f, [], []⟩, parse_of_canonical hc hn workingDir, hf⟩

/-- A state with a canonical key, a key that ends in a separator, and a file. -/
def slashed : State where
  assignments := .ofList [("/a/".text, "RS-3-2-1024k".text), ("/b".text, "gone".text)]
  files := ["/f".text]

theorem accepted_slashed : slashed.Accepted :=
  .read (v := slashed.toJson) rfl

theorem canonical_singleton {x : Text} (hx : Segment x) : Canonical (separator :: x) :=
  ⟨[x], fun _ hy => List.mem_singleton.1 hy ▸ hx, rfl⟩

/-- The canonical key is honoured, the other one is out of reach, and the file is exempt. -/
theorem stored_paths_slashed :
    Honoured "/".text slashed "/b".text "gone".text ∧
    OutOfReach "/".text slashed "/a/".text ∧ Exempt "/".text slashed "/f".text := by
  obtain ⟨hkeys, hreach, hfiles, -⟩ := stored_paths "/".text slashed accepted_slashed
  refine ⟨(hkeys _ _ rfl (by decide)).2 ⟨canonical_singleton ?_, by decide⟩,
    hreach _ fun hc => ?_, hfiles _ (.head _) (canonical_singleton ?_) (by decide)⟩
  · exact ⟨by decide, by decide, by decide, by decide⟩
  · -- a canonical path would be read as itself
    have hp := parse_of_canonical hc (by decide) "/".text
    cases hp.symm.trans (show parse "/".text "/a/".text = .ok ⟨"/a".text, [], []⟩ from rfl)
  · exact ⟨by decide, by decide, by decide, by decide⟩

/-- Not every assignment of an accepted state is honoured. -/
theorem not_always_honoured :
    ¬ ∀ s : State, s.Accepted → ∀ k name, s.assignments.get? k = some name → k ∉ s.files →
      Honoured "/".text s k name := by
  intro h
  obtain ⟨p, hp, -, hu⟩ := h slashed accepted_slashed "/a/".text "RS-3-2-1024k".text rfl
    (by decide)
  -- the key is read as the path without the separator, and nothing is assigned there
  cases hp
  cases hu

end State

end CodingPolicy
