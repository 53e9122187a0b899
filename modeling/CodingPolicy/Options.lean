/-
CodingPolicy/Options.lean

Options on a command's arguments. Each option is looked for by its exact name,
in the order of the declarations; its first occurrence is taken out, together
with the argument after it if the option takes a value, and a double dash ends
the search. What is left when every option was looked for is too much.
-/
import CodingPolicy.Failure
import CodingPolicy.OrderedMap

namespace CodingPolicy

/-- The declaration of an option. -/
structure OptionSpec where
  /-- The name, as it is written. -/
  name : Text
  /-- The argument after the name is the option's value. -/
  takesValue : Bool := true
  /-- The option must be there. -/
  required : Bool := true
  /-- What to say when the option is required and absent. -/
  hint : Text := []
  deriving DecidableEq, Repr

/-- What was found of an option. -/
inductive OptionValue where
  /-- The value of an option that takes one. -/
  | text (value : Text)
  /-- Whether an option without a value is there. -/
  | flag (present : Bool)
  /-- No occurrence of an option that takes a value. -/
  | absent
  deriving DecidableEq, Repr

namespace OptionValue

/-- The value as text. -/
def shown : OptionValue → Text
  | text value => value
  | flag true => "True".text
  | flag false => "False".text
  | absent => "None".text

end OptionValue

namespace Options

/-- The argument that ends the search for options. -/
def terminator : Text := "--".text

/-- Takes the first occurrence of the name out of the arguments. -/
def takeFlag (name : Text) : List Text → Bool × List Text
  | [] => (false, [])
  | a :: r =>
    if a = terminator then (false, a :: r)
    else if a = name then (true, r)
    else
      let (found, rest) := takeFlag name r
      (found, a :: rest)

/-- Takes the first occurrence of the name and the argument after it out of the
arguments. -/
def takeValue (name : Text) : List Text → Except Failure (Option Text × List Text)
  | [] => .ok (none, [])
  | a :: r =>
    if a = terminator then .ok (none, a :: r)
    else if a = name then
      match r with
      | [] => .error (.invalidArgument (.valueMissing name))
      | value :: rest => .ok (some value, rest)
    else
      match takeValue name r with
      | .ok (found, rest) => .ok (found, a :: rest)
      | .error f => .error f

/-- The failure of a required option that is absent. -/
def missing (spec : OptionSpec) : Failure :=
  .usage (.missingOption spec.name (if spec.hint = [] then defaultHint spec.name else spec.hint))

/-- Takes one option out of the arguments. -/
def takeOption (spec : OptionSpec) (args : List Text) :
    Except Failure (OptionValue × List Text) :=
  if spec.takesValue then
    match takeValue spec.name args with
    | .error f => .error f
    | .ok (some value, rest) => .ok (.text value, rest)
    | .ok (none, rest) => if spec.required then .error (missing spec) else .ok (.absent, rest)
  else
    match takeFlag spec.name args with
    | (true, rest) => .ok (.flag true, rest)
    | (false, rest) => if spec.required then .error (missing spec) else .ok (.flag false, rest)

/-- Takes the options out of the arguments, one after the other. -/
def takeAll (values : OrderedMap Text OptionValue) :
    List OptionSpec → List Text → Except Failure (OrderedMap Text OptionValue × List Text)
  | [], args => .ok (values, args)
  | spec :: specs, args =>
    match takeOption spec args with
    | .error f => .error f
    | .ok (value, rest) => takeAll (values.insert spec.name value) specs rest

/-- The values of all options; nothing may be left of the arguments. -/
def parse (specs : List OptionSpec) (args : List Text) :
    Except Failure (OrderedMap Text OptionValue) :=
  match takeAll .empty specs args with
  | .error f => .error f
  | .ok (values, []) => .ok values
  | .ok (_, leftover) => .error (.usage (.tooManyArguments leftover))

end Options

end CodingPolicy
