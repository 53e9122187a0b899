/-
CodingPolicy/Namespace/Backend.lean

Ways to serve a namespace. A backend answers the four calls of the namespace
service, starting from a world and leaving one behind, and may log events on
the way. The plainest backend keeps the state itself as its world.
-/
import CodingPolicy.Log.Event
import CodingPolicy.Namespace.Service

namespace CodingPolicy

/-- What a call to the namespace service comes to. -/
structure Reply (σ α : Type) where
  /-- The value, or the failure. -/
  outcome : Except Failure α
  /-- The world after the call. -/
  world : σ
  /-- The events that the call logs. -/
  events : List Log.Event := []

/-- A namespace service over worlds of a type. -/
structure Backend (σ : Type) where
  /-- The known policies with the gaps. -/
  list : σ → Reply σ (List (Option Policy))
  /-- The policy in effect at a place. -/
  get : NamespacePath → σ → Reply σ (Option Policy)
  /-- Gives a place a policy of its own. -/
  set : NamespacePath → Text → σ → Reply σ Unit
  /-- Takes a place's own policy away. -/
  unset : NamespacePath → σ → Reply σ Unit

namespace Backend

/-- The reply to a question, which leaves the state as it is. -/
def asked {α : Type} (s : State) (outcome : Except Failure α) : Reply State α :=
  { outcome, world := s }

/-- The reply to a change, which leaves the state as it is if it fails. -/
def changed (s : State) : Except Failure State → Reply State Unit
  | .ok t => { outcome := .ok (), world := t }
  | .error f => { outcome := .error f, world := s }

/-- The service of a namespace held in memory. -/
def inMemory : Backend State where
  list s := asked s (.ok s.policies)
  get p s := asked s (s.effectivePolicy p)
  set p name s := changed s (s.setPolicy p name)
  unset p s := changed s (s.unsetPolicy p)

/-- A service that meets every call with the same failure. -/
def failing {σ : Type} (f : Failure) : Backend σ where
  list w := { outcome := .error f, world := w }
  get _ w := { outcome := .error f, world := w }
  set _ _ w := { outcome := .error f, world := w }
  unset _ w := { outcome := .error f, world := w }

end Backend

end CodingPolicy
