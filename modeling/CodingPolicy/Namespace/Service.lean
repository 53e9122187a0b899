/-
CodingPolicy/Namespace/Service.lean

What the namespace does for its users: it lists the known policies, tells the
policy in effect at a path, and gives a path a policy of its own or takes it
away. The policy in effect is the path's own, or else that of the nearest
ancestor that carries one.

Main results: setting and unsetting change the assignments alone
(`policies_of_setPolicy`, `policies_of_unsetPolicy`).
-/
import CodingPolicy.Namespace.Path
import CodingPolicy.Namespace.Schema

namespace CodingPolicy

namespace Policy

/-- The policy of a name that is not blank. -/
def ofName (name : Text) : Except Failure Policy :=
  match readName (.string name) with
  | .ok policy => .ok policy
  | .error vs => .error (.invalidModel vs)

end Policy

namespace State

/-- The policy name at the place itself or at its nearest ancestor that carries
one. -/
def inheritedName? (s : State) (p : NamespacePath) : Option Text :=
  p.lineage.findSome? fun q => s.assignments.get? q.path

/-- The policy in effect at a place. A name keeps its effect when the policy is
no longer known. -/
def effectivePolicy (s : State) (p : NamespacePath) : Except Failure (Option Policy) :=
  match s.inheritedName? p with
  | none => .ok none
  | some name =>
    match s.findPolicy? name with
    | some policy => .ok (some policy)
    | none => (Policy.ofName name).map some

/-- Gives the place a known policy of its own; regular files take none. -/
def setPolicy (s : State) (p : NamespacePath) (name : Text) : Except Failure State :=
  match s.findPolicy? name with
  | none => .error (.service (.policyNotFound name s.policyNames))
  | some policy =>
    if p.path ∈ s.files then .error (.service (.ineligible (.setOnFile p.path)))
    else .ok { s with assignments := s.assignments.insert p.path policy.name }

/-- Takes the place's own policy away; there must be one, and regular files
have none. -/
def unsetPolicy (s : State) (p : NamespacePath) : Except Failure State :=
  if p.path ∈ s.files then .error (.service (.ineligible (.unsetOnFile p.path)))
  else
    match s.assignments.get? p.path with
    | none => .error (.service (.noPolicySet p.path))
    | some _ => .ok { s with assignments := s.assignments.erase p.path }

/-! ### What stays -/

theorem policies_of_setPolicy {s t : State} {p : NamespacePath} {name : Text}
    (h : s.setPolicy p name = .ok t) : t.policies = s.policies ∧ t.files = s.files := by
  simp only [setPolicy] at h
  split at h
  · simp at h
  · split at h
    · simp at h
    · simp only [Except.ok.injEq] at h
      subst h
      exact ⟨rfl, rfl⟩

theorem policies_of_unsetPolicy {s t : State} {p : NamespacePath}
    (h : s.unsetPolicy p = .ok t) : t.policies = s.policies ∧ t.files = s.files := by
  simp only [unsetPolicy] at h
  split at h
  · simp at h
  · split at h
    · simp at h
    · simp only [Except.ok.injEq] at h
      subst h
      exact ⟨rfl, rfl⟩

end State

end CodingPolicy
