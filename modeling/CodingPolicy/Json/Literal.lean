/-
CodingPolicy/Json/Literal.lean

JSON values as they are shown to people: a text as it is, and any other value
as a literal, in which texts are quoted, the truth values and the null value
have capital names, and items are set apart by a comma and a space.
-/
import CodingPolicy.Json.Value
import CodingPolicy.Text.Quoted

namespace CodingPolicy.Json

mutual

/-- The literal of a value. -/
def literal : Json → Text
  | null => "None".text
  | bool true => "True".text
  | bool false => "False".text
  | int i => Number.intText i
  | float x => x.text
  | string t => Text.quote t
  | array items => .char '[' :: Text.joinWith ", ".text (literalItems items) ++ [.char ']']
  | object members => .char '{' :: Text.joinWith ", ".text (literalMembers members) ++ [.char '}']

/-- The literals of the items of a list. -/
def literalItems : List Json → List Text
  | [] => []
  | v :: r => literal v :: literalItems r

/-- The literals of the members of an object. -/
def literalMembers : List (Text × Json) → List Text
  | [] => []
  | (k, v) :: r => (Text.quote k ++ ": ".text ++ literal v) :: literalMembers r

end

/-- The value as it is shown: a text as it is, anything else as its literal. -/
def display : Json → Text
  | string t => t
  | v => literal v

end CodingPolicy.Json
