/-
CodingPolicy/Violation.lean

What is wrong with a value that was to fit a model: the place inside the
value, and the cause. A check goes through a whole value and lists every
violation, in order.
-/
import CodingPolicy.Text.Basic

namespace CodingPolicy

/-- One step on the way into a value: a key of an object or a place in a list. -/
inductive Place where
  /-- The value at a key. -/
  | key (name : Text)
  /-- The item at a place, counted from zero. -/
  | item (index : Nat)
  deriving DecidableEq, Repr

/-- Why a value does not fit. -/
inductive Violation.Cause where
  /-- An object was needed, to make one of the named model. -/
  | noObject (model : Text)
  /-- An object with free keys was needed. -/
  | noMap
  /-- A list was needed. -/
  | noList
  /-- A text was needed. -/
  | noText
  /-- The text of a path was needed. -/
  | noPath
  /-- A key is missing. -/
  | missing
  /-- The key means nothing here. -/
  | unknownKey
  /-- A key has no bytes. -/
  | noBytes
  /-- The value has the right form and is refused for this reason. -/
  | refused (reason : Text)
  deriving DecidableEq, Repr

/-- A violation: where it is and what it is. -/
structure Violation where
  /-- The way into the value. -/
  place : List Place
  /-- Why the value there does not fit. -/
  cause : Violation.Cause
  deriving DecidableEq, Repr

namespace Violation

/-- The code of a cause. -/
def Cause.code : Cause → Text
  | noObject _ => "model_type".text
  | noMap => "dict_type".text
  | noList => "list_type".text
  | noText => "string_type".text
  | noPath => "path_type".text
  | missing => "missing".text
  | unknownKey => "extra_forbidden".text
  | noBytes => "string_unicode".text
  | refused _ => "value_error".text

/-- The cause in words. -/
def Cause.message : Cause → Text
  | noObject model => "Input should be a valid dictionary or instance of ".text ++ model
  | noMap => "Input should be a valid dictionary".text
  | noList => "Input should be a valid list".text
  | noText => "Input should be a valid string".text
  | noPath => "Input is not a valid path for <class 'pathlib.Path'>".text
  | missing => "Field required".text
  | unknownKey => "Extra inputs are not permitted".text
  | noBytes =>
    "Input should be a valid string, unable to parse raw data as a unicode string".text
  | refused reason => "Value error, ".text ++ reason

/-- The violation seen from one step further out. -/
def under (step : Place) (v : Violation) : Violation :=
  { v with place := step :: v.place }

end Violation

end CodingPolicy
