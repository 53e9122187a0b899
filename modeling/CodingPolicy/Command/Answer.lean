/-
CodingPolicy/Command/Answer.lean

The words of the commands' answers.
-/
import CodingPolicy.Failure

namespace CodingPolicy.Command.Answer

/-- The lines of a list of policies. -/
def policies (names : List Text) : List Text :=
  "Erasure Coding Policies:".text :: names.map fun name => .char '\t' :: name

/-- No policy is in effect at the path. -/
def unspecified (path : Text) : Text :=
  said "The erasure coding policy of " (path ++ " is unspecified".text)

/-- The path has the policy now. -/
def set (policy path : Text) : Text :=
  said "Set erasure coding policy " (policy ++ said " on " path)

/-- The path has no policy of its own any more. -/
def unset (path : Text) : Text :=
  said "Unset erasure coding policy from " path

end CodingPolicy.Command.Answer
