/-
CodingPolicy/Namespace/State.lean

What the namespace keeps: the known erasure coding policies, with gaps where a
policy was removed, the policies that paths carry of their own, and the paths
that are regular files.
-/
import CodingPolicy.OrderedMap
import CodingPolicy.Text.Blank

namespace CodingPolicy

/-- An erasure coding policy, which is known by its name. -/
structure Policy where
  /-- The name. -/
  name : Text
  deriving DecidableEq, Repr

namespace Policy

/-- The names of the policies that a new namespace knows. -/
def systemNames : List Text :=
  ["RS-10-4-1024k".text, "RS-3-2-1024k".text, "RS-6-3-1024k".text,
    "RS-LEGACY-6-3-1024k".text, "XOR-2-1-1024k".text]

/-- The policies that a new namespace knows. -/
def system : List (Option Policy) :=
  systemNames.map fun name => some ⟨name⟩

end Policy

/-- The state of a namespace. -/
structure State where
  /-- The known policies; nothing stands in the place of one that was removed. -/
  policies : List (Option Policy) := Policy.system
  /-- The policy names that paths carry of their own. -/
  assignments : OrderedMap Text Text := .empty
  /-- The paths of regular files. -/
  files : List Text := []
  deriving DecidableEq

namespace State

/-- The known policies without the gaps. -/
def known (s : State) : List Policy :=
  s.policies.filterMap id

/-- The names of the known policies. -/
def policyNames (s : State) : List Text :=
  s.known.map Policy.name

/-- The first known policy of a name. -/
def findPolicy? (s : State) (name : Text) : Option Policy :=
  s.known.find? fun p => p.name = name

/-- The rules on a state: policy names are not blank, neither in the list nor
at a path, and every path is absolute. -/
structure Valid (s : State) : Prop where
  /-- No known policy has a blank name. -/
  policies : ∀ p ∈ s.known, Text.isBlankText p.name = false
  /-- No path carries a blank name, and the paths are absolute. -/
  assignments : ∀ e ∈ s.assignments.entries,
    e.1.head? = some (.char '/') ∧ Text.isBlankText e.2 = false
  /-- The paths of files are absolute. -/
  files : ∀ f ∈ s.files, f.head? = some (.char '/')

end State

end CodingPolicy
