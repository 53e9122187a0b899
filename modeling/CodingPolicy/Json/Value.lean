/-
CodingPolicy/Json/Value.lean

The values of the JSON data format. Whole numbers and floating-point numbers
are told apart, and the members of an object keep their order.
-/
import CodingPolicy.Number.Binary64

namespace CodingPolicy

/-- A JSON value. -/
inductive Json where
  /-- The null value. -/
  | null
  /-- A truth value. -/
  | bool (value : Bool)
  /-- A whole number of any size. -/
  | int (value : Int)
  /-- A floating-point number; the format is taken to include infinities and NaN. -/
  | float (value : Number.Binary64)
  /-- A text. -/
  | string (value : Text)
  /-- A list of values. -/
  | array (items : List Json)
  /-- Named values, in order. -/
  | object (members : List (Text × Json))
  deriving Repr, Inhabited

end CodingPolicy
