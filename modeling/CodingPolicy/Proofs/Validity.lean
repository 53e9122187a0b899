/-
CodingPolicy/Proofs/Validity.lean

States that keep the rules.  On such a state every call either does what it is
for or is refused (`Backend.refused_iff`), and the state that it leaves keeps the
rules too (`State.Valid.perform`).  The reasons to refuse a call are those of
`State.Refuses`: a policy that is not known, a path that is a file, a path without
a policy of its own.  The policy in effect is told in full: it is the one of the
inherited name (`State.Valid.effectivePolicy`).
-/
import CodingPolicy.Proofs.Call
import CodingPolicy.Proofs.Outcome

namespace CodingPolicy

/-! ### Policies -/

namespace Policy

theorem ofName_of_not_blank {name : Text} (h : Text.isBlankText name = false) :
    ofName name = .ok ⟨name⟩ := by
  simp [ofName, readName, readTextValue, checkName, h, within]

theorem name_of_ofName {name : Text} {policy : Policy} (h : ofName name = .ok policy) :
    policy = ⟨name⟩ := by
  cases hb : Text.isBlankText name with
  | false =>
    rw [ofName_of_not_blank hb] at h
    cases h
    rfl
  | true => simp [ofName, readName, readTextValue, checkName, hb, within, refuse] at h

end Policy

/-! ### The four operations -/

namespace State

variable {s t : State} {p : NamespacePath} {name : Text} {f : Failure}

/-- The state of a new namespace keeps the rules. -/
theorem valid_new : ({} : State).Valid := by
  refine ⟨by decide, ?_, ?_⟩
  · intro e he
    cases he
  · intro f hf
    cases hf

theorem name_of_findPolicy? {policy : Policy} (h : s.findPolicy? name = some policy) :
    policy ∈ s.known ∧ policy.name = name :=
  ⟨List.mem_of_find?_eq_some h,
    of_decide_eq_true (List.find?_some (p := fun q : Policy => q.name = name) h)⟩

theorem mem_policyNames_iff : name ∈ s.policyNames ↔ ∃ policy ∈ s.known, policy.name = name :=
  List.mem_map

/-- The look-up by name finds the names that are listed. -/
theorem findPolicy?_eq_none_iff : s.findPolicy? name = none ↔ name ∉ s.policyNames := by
  simp [findPolicy?, policyNames]

/-- Setting in its steps. -/
theorem setPolicy_eq (s : State) (p : NamespacePath) (name : Text) :
    s.setPolicy p name =
      if name ∈ s.policyNames then
        if p.path ∈ s.files then .error (.service (.ineligible (.setOnFile p.path)))
        else .ok { s with assignments := s.assignments.insert p.path name }
      else .error (.service (.policyNotFound name s.policyNames)) := by
  unfold setPolicy
  rcases e : s.findPolicy? name with - | policy
  · rw [if_neg (findPolicy?_eq_none_iff.1 e)]
  · obtain ⟨hk, rfl⟩ := name_of_findPolicy? e
    rw [if_pos (mem_policyNames_iff.2 ⟨policy, hk, rfl⟩)]

/-- Setting succeeds for a known policy on a place that is no file. -/
theorem setPolicy_eq_ok :
    s.setPolicy p name = .ok t ↔
      (∃ policy ∈ s.known, policy.name = name) ∧ p.path ∉ s.files ∧
        t = { s with assignments := s.assignments.insert p.path name } := by
  rw [setPolicy_eq]
  constructor
  · intro h
    split at h
    · next hk =>
      split at h <;> cases h
      next hf => exact ⟨mem_policyNames_iff.1 hk, hf, rfl⟩
    · cases h
  · rintro ⟨hk, hf, rfl⟩
    rw [if_pos (mem_policyNames_iff.2 hk), if_neg hf]

/-- Unsetting succeeds on a place with a policy of its own that is no file. -/
theorem unsetPolicy_eq_ok :
    s.unsetPolicy p = .ok t ↔
      p.path ∉ s.files ∧ (∃ name, s.assignments.get? p.path = some name) ∧
        t = { s with assignments := s.assignments.erase p.path } := by
  unfold unsetPolicy
  constructor
  · intro h
    split at h
    · cases h
    · next hf =>
      split at h <;> cases h
      next name hname => exact ⟨hf, ⟨name, hname⟩, rfl⟩
  · rintro ⟨hf, ⟨name, hname⟩, rfl⟩
    rw [if_neg hf, hname]

/-- Why a state refuses a call. -/
inductive Refuses (s : State) : Call → ServiceFailure → Prop
  /-- The policy that is to be set is not known. -/
  | unknown {p : NamespacePath} {name : Text} (hk : name ∉ s.policyNames) :
      Refuses s (.set p name) (.policyNotFound name s.policyNames)
  /-- The policy is known, and the place it is to be set on is a file. -/
  | setOnFile {p : NamespacePath} {name : Text} (hk : name ∈ s.policyNames)
      (hf : p.path ∈ s.files) : Refuses s (.set p name) (.ineligible (.setOnFile p.path))
  /-- The place that a policy is to be taken from is a file. -/
  | unsetOnFile {p : NamespacePath} (hf : p.path ∈ s.files) :
      Refuses s (.unset p) (.ineligible (.unsetOnFile p.path))
  /-- The place is no file and carries no policy of its own, whatever it inherits. -/
  | nothingSet {p : NamespacePath} (hf : p.path ∉ s.files)
      (hn : s.assignments.get? p.path = none) : Refuses s (.unset p) (.noPolicySet p.path)

/-- Setting fails for just these reasons. -/
theorem setPolicy_eq_error :
    s.setPolicy p name = .error f ↔
      ∃ cause, Refuses s (.set p name) cause ∧ f = .service cause := by
  rw [setPolicy_eq]
  constructor
  · intro h
    split at h
    · next hk =>
      split at h <;> cases h
      next hf => exact ⟨_, .setOnFile hk hf, rfl⟩
    · next hk =>
      cases h
      exact ⟨_, .unknown hk, rfl⟩
  · rintro ⟨cause, h, rfl⟩
    cases h with
    | unknown hk => rw [if_neg hk]
    | setOnFile hk hf => rw [if_pos hk, if_pos hf]

/-- Unsetting fails for just these reasons. -/
theorem unsetPolicy_eq_error :
    s.unsetPolicy p = .error f ↔ ∃ cause, Refuses s (.unset p) cause ∧ f = .service cause := by
  unfold unsetPolicy
  constructor
  · intro h
    split at h
    · next hf =>
      cases h
      exact ⟨_, .unsetOnFile hf, rfl⟩
    · next hf =>
      split at h <;> cases h
      next hn => exact ⟨_, .nothingSet hf hn, rfl⟩
  · rintro ⟨cause, h, rfl⟩
    cases h with
    | unsetOnFile hf => rw [if_pos hf]
    | nothingSet hf hn => rw [if_neg hf, hn]

/-- The inherited name is one that some path carries. -/
theorem mem_of_inheritedName? (h : s.inheritedName? p = some name) :
    ∃ path, (path, name) ∈ s.assignments.entries := by
  obtain ⟨q, -, hq⟩ := List.exists_of_findSome?_eq_some h
  exact ⟨q.path, Entries.mem_of_get? hq⟩

/-- A policy that is told is the one of the inherited name. -/
theorem effectivePolicy_eq_ok {inEffect : Option Policy}
    (h : s.effectivePolicy p = .ok inEffect) : inEffect = (s.inheritedName? p).map Policy.mk := by
  unfold effectivePolicy at h
  rcases e : s.inheritedName? p with - | name
  · rw [e] at h
    cases h
    rfl
  · rw [e] at h
    dsimp only at h
    rcases ef : s.findPolicy? name with - | policy
    · rw [ef] at h
      obtain ⟨policy, hp, rfl⟩ := map_eq_ok.1 h
      rw [Policy.name_of_ofName hp]
      rfl
    · rw [ef] at h
      cases h
      obtain ⟨-, rfl⟩ := name_of_findPolicy? ef
      rfl

/-- **On a valid state the policy of the inherited name is told**, known or not. -/
theorem Valid.effectivePolicy (hs : s.Valid) (p : NamespacePath) :
    s.effectivePolicy p = .ok ((s.inheritedName? p).map Policy.mk) := by
  unfold State.effectivePolicy
  rcases e : s.inheritedName? p with - | name
  · rfl
  · dsimp only
    rcases ef : s.findPolicy? name with - | policy
    · -- an unknown name is told as it is, since the rules on assignments hold of it
      obtain ⟨path, hm⟩ := mem_of_inheritedName? e
      rw [Policy.ofName_of_not_blank (hs.assignments _ hm).2]
      rfl
    · obtain ⟨-, rfl⟩ := name_of_findPolicy? ef
      rfl

/-- A policy set on an absolute path keeps the rules. -/
theorem Valid.setPolicy (hs : s.Valid) (hp : p.path.head? = some (.char '/'))
    (h : s.setPolicy p name = .ok t) : t.Valid := by
  obtain ⟨⟨policy, hk, rfl⟩, -, rfl⟩ := setPolicy_eq_ok.1 h
  refine ⟨hs.policies, fun e he => ?_, hs.files⟩
  rcases Entries.mem_insert he with rfl | he
  · exact ⟨hp, hs.policies policy hk⟩
  · exact hs.assignments e he

/-- A policy taken away keeps the rules. -/
theorem Valid.unsetPolicy (hs : s.Valid) (h : s.unsetPolicy p = .ok t) : t.Valid := by
  obtain ⟨-, -, rfl⟩ := unsetPolicy_eq_ok.1 h
  exact ⟨hs.policies, fun e he => hs.assignments e (List.mem_filter.1 he).1, hs.files⟩

end State

/-! ### Calls -/

/-- The call is one that can change assignments. -/
def Call.IsChange : Call → Prop
  | set _ _ | unset _ => True
  | list | get _ => False

namespace Backend

variable {s : State}

theorem perform_set (p : NamespacePath) (name : Text) (s : State) :
    inMemory.perform (.set p name) s = (changed s (s.setPolicy p name)).map fun _ => .done := rfl

theorem perform_unset (p : NamespacePath) (s : State) :
    inMemory.perform (.unset p) s = (changed s (s.unsetPolicy p)).map fun _ => .done := rfl

/-- A change fails where its step does. -/
theorem changed_eq_error {r : Except Failure State} {f : Failure} :
    (changed s r).outcome = .error f ↔ r = .error f := by
  rcases r with g | t <;> simp [changed]

/-- A change changes assignments alone, and nothing else changes the state. -/
theorem perform_inMemory (call : Call) (s : State) :
    (inMemory.perform call s).world = s ∨
      call.IsChange ∧ (∃ result, (inMemory.perform call s).outcome = .ok result) ∧
        (inMemory.perform call s).world.policies = s.policies ∧
        (inMemory.perform call s).world.files = s.files := by
  cases call with
  | list => exact .inl rfl
  | get p => exact .inl rfl
  | set p name =>
    rw [perform_set]
    rcases e : s.setPolicy p name with f | t
    · exact .inl rfl
    · exact .inr ⟨trivial, ⟨.done, rfl⟩, State.policies_of_setPolicy e⟩
  | unset p =>
    rw [perform_unset]
    rcases e : s.unsetPolicy p with f | t
    · exact .inl rfl
    · exact .inr ⟨trivial, ⟨.done, rfl⟩, State.policies_of_unsetPolicy e⟩

theorem world_of_error {call : Call} {f : Failure}
    (h : (inMemory.perform call s).outcome = .error f) : (inMemory.perform call s).world = s := by
  rcases perform_inMemory call s with hw | ⟨-, ⟨result, ho⟩, -⟩
  · exact hw
  · cases ho.symm.trans h

theorem world_of_not_isChange {call : Call} (h : ¬ call.IsChange) :
    (inMemory.perform call s).world = s := by
  rcases perform_inMemory call s with hw | ⟨hc, -⟩
  · exact hw
  · exact absurd hc h

/-- **On a valid state a call fails just where the state refuses it.** -/
theorem refused_iff (hs : s.Valid) {call : Call} {f : Failure} :
    (inMemory.perform call s).outcome = .error f ↔
      ∃ cause, s.Refuses call cause ∧ f = .service cause := by
  cases call with
  | list =>
    constructor
    · intro h
      cases h
    · rintro ⟨cause, h, -⟩
      cases h
  | get p =>
    -- the policy in effect is always told
    have hread : (inMemory.perform (.get p) s).outcome =
        .ok (.policy ((s.inheritedName? p).map Policy.mk)) := by
      show (s.effectivePolicy p).map Call.Result.policy = _
      rw [hs.effectivePolicy]
      rfl
    rw [hread]
    constructor
    · intro h
      cases h
    · rintro ⟨cause, h, -⟩
      cases h
  | set p name =>
    rw [perform_set, Reply.map_outcome, map_eq_error, changed_eq_error]
    exact State.setPolicy_eq_error
  | unset p =>
    rw [perform_unset, Reply.map_outcome, map_eq_error, changed_eq_error]
    exact State.unsetPolicy_eq_error

/-- On a valid state a call fails with a failure of the service alone. -/
theorem own_of_perform (hs : s.Valid) {call : Call} {f : Failure}
    (h : (inMemory.perform call s).outcome = .error f) : ∃ cause, f = .service cause := by
  obtain ⟨cause, -, rfl⟩ := (refused_iff hs).1 h
  exact ⟨cause, rfl⟩

end Backend

/-- **A call on an absolute path leaves a valid state.** -/
theorem State.Valid.perform {s : State} (hs : s.Valid) {call : Call}
    (hp : ∀ p, call.place? = some p → p.path.head? = some (.char '/')) :
    (Backend.inMemory.perform call s).world.Valid := by
  cases call with
  | list => exact hs
  | get p => exact hs
  | set p name =>
    rw [Backend.perform_set]
    rcases e : s.setPolicy p name with f | t
    · exact hs
    · exact hs.setPolicy (hp p rfl) e
  | unset p =>
    rw [Backend.perform_unset]
    rcases e : s.unsetPolicy p with f | t
    · exact hs
    · exact hs.unsetPolicy e

end CodingPolicy
