/-
CodingPolicy/Command/Basic.lean

Commands, and how they are made from a command's description and arguments.
-/
import CodingPolicy.Command.Registry
import CodingPolicy.Namespace.Path

namespace CodingPolicy

/-- A command with its arguments. -/
inductive Command where
  /-- Lists the known policies. -/
  | listPolicies
  /-- Tells the policy in effect at a place. -/
  | getPolicy (path : NamespacePath)
  /-- Gives a place a policy of its own. -/
  | setPolicy (path : NamespacePath) (policy : Text)
  /-- Takes a place's own policy away. -/
  | unsetPolicy (path : NamespacePath)
  /-- Explains one command, or all of them. -/
  | help (topic : Option Text)
  /-- No particular command; it cannot be carried out. -/
  | unspecified
  deriving DecidableEq, Repr

namespace Command

/-- The topic of a call for help. -/
def parseHelp : List Text → Except Failure Command
  | [] => .ok (.help none)
  | [topic] => .ok (.help (some topic))
  | _ => .error (.usage .tooManyTopics)

/-- The value of an option that the description must declare. -/
def optionText (values : OrderedMap Text OptionValue) (name : String) : Except Failure Text :=
  match values.get? name.text with
  | some value => .ok value.shown
  | none => .error (.missingKey name.text)

/-- The place that the path option names. -/
def optionPath (values : OrderedMap Text OptionValue) (workingDir : Text) :
    Except Failure NamespacePath :=
  optionText values "-path" >>= NamespacePath.parse workingDir

/-- The command of a description and its arguments. -/
def parse (s : Spec) (args : List Text) (workingDir : Text) : Except Failure Command :=
  if s.name = Name.help.text then parseHelp args
  else do
    let values ← Options.parse s.options args
    match Name.ofText? s.name with
    | some .listPolicies => return .listPolicies
    | some .getPolicy => return .getPolicy (← optionPath values workingDir)
    | some .setPolicy => do
      let path ← optionPath values workingDir
      return .setPolicy path (← optionText values "-policy")
    | some .unsetPolicy => return .unsetPolicy (← optionPath values workingDir)
    | _ => throw (.usage (.noParser s.name))

end Command

end CodingPolicy
