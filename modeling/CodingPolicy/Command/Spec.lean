/-
CodingPolicy/Command/Spec.lean

What is known of a command before it is called: its name, its options, and the
words of its help.
-/
import CodingPolicy.Options
import CodingPolicy.Text.Table

namespace CodingPolicy.Command

/-- The names of the commands. -/
inductive Name where
  /-- Lists the known policies. -/
  | listPolicies
  /-- Tells the policy in effect at a path. -/
  | getPolicy
  /-- Gives a path a policy of its own. -/
  | setPolicy
  /-- Takes a path's own policy away. -/
  | unsetPolicy
  /-- Explains the commands. -/
  | help
  deriving DecidableEq, Repr

namespace Name

/-- The names in the order in which they are listed. -/
def all : List Name :=
  [listPolicies, getPolicy, setPolicy, unsetPolicy, help]

/-- The name as it is written. -/
def text : Name → Text
  | listPolicies => "-listPolicies".text
  | getPolicy => "-getPolicy".text
  | setPolicy => "-setPolicy".text
  | unsetPolicy => "-unsetPolicy".text
  | help => "-help".text

/-- The label of the name in listings of all names. -/
def label : Name → Text
  | listPolicies => "LIST_POLICIES".text
  | getPolicy => "GET_POLICY".text
  | setPolicy => "SET_POLICY".text
  | unsetPolicy => "UNSET_POLICY".text
  | help => "HELP".text

/-- The name that is written this way. -/
def ofText? (t : Text) : Option Name :=
  all.find? fun n => n.text = t

end Name

/-- The description of a command. -/
structure Spec where
  /-- The name as it is written. -/
  name : Text
  /-- The arguments, in short. -/
  synopsis : Text := []
  /-- What the command does, in a sentence. -/
  description : Text := []
  /-- The options. -/
  options : List OptionSpec := []
  /-- The arguments with their descriptions. -/
  rows : List (Text × Text) := []
  deriving DecidableEq, Repr

namespace Spec

/-- The name and the synopsis in brackets. -/
def shortUsage (s : Spec) : Text :=
  if s.synopsis = [] then said "[" (s.name ++ [.char ']'])
  else said "[" (s.name ++ .char ' ' :: s.synopsis ++ [.char ']'])

/-- The short usage, the description, and a table of the arguments if there
are any, set apart by empty lines. -/
def longUsage (s : Spec) : Text :=
  let table := if s.rows = [] then [] else [[], Text.Table.render s.rows Text.Table.defaultWidth]
  Text.joinWith [.char '\n'] ([s.shortUsage, [], s.description] ++ table)

end Spec

end CodingPolicy.Command
