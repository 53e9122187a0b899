/-
CodingPolicy/Json/Printer.lean

JSON text. A layout says what stands at a line's end and after a colon; the
compact layout has nothing there, the indented one breaks the line before
every item and indents it by its depth. Characters beyond ASCII are written as
they are; the quotation mark, the backslash and the control characters are
escaped.
-/
import CodingPolicy.Json.Value
import CodingPolicy.Text.Quoted

namespace CodingPolicy.Json

open Text (doubleQuote backslash)

/-! ### Texts -/

/-- The form of a character inside quotation marks. -/
def escaped (c : CodePoint) : Text :=
  if c = doubleQuote ∨ c = backslash then [backslash, c]
  else if c = '\n' then [backslash, 'n']
  else if c = '\r' then [backslash, 'r']
  else if c = '\t' then [backslash, 't']
  else if c = '\x0c' then [backslash, 'f']
  else if c = '\x08' then [backslash, 'b']
  else if c.toNat < 0x20 then backslash :: .char 'u' :: Number.hexText 4 c.toNat
  else [c]

/-- The text between quotation marks. -/
def quoted (t : Text) : Text :=
  doubleQuote :: t.flatMap escaped ++ [doubleQuote]

/-! ### Numbers -/

/-- The text of a floating-point number; infinities and NaN have names. -/
def floatText : Number.Binary64 → Text
  | .nan => "NaN".text
  | .infinity negative => (if negative then [.char '-'] else []) ++ "Infinity".text
  | x => x.text

/-! ### Values -/

/-- How the parts of a value are set apart. -/
structure Layout where
  /-- What stands before an item at this depth. -/
  lineBreak : Nat → Text
  /-- What stands between a name and its value. -/
  colon : Text

/-- Everything on one line, without spaces. -/
def Layout.compact : Layout := ⟨fun _ => [], [.char ':']⟩

/-- Every item on a line of its own, two spaces further in than its container. -/
def Layout.indented : Layout :=
  ⟨fun depth => .char '\n' :: List.replicate (2 * depth) (.char ' '), [.char ':', .char ' ']⟩

/-- Items between brackets. -/
def bracketed (l : Layout) (depth : Nat) (opening closing : CodePoint) : List Text → Text
  | [] => [opening, closing]
  | items =>
    opening :: l.lineBreak (depth + 1)
      ++ Text.joinWith (.char ',' :: l.lineBreak (depth + 1)) items
      ++ l.lineBreak depth ++ [closing]

mutual

/-- The text of a value that stands at the given depth. -/
def printAt (l : Layout) (depth : Nat) : Json → Text
  | null => "null".text
  | bool true => "true".text
  | bool false => "false".text
  | int i => Number.intText i
  | float x => floatText x
  | string t => quoted t
  | array items => bracketed l depth '[' ']' (printItems l (depth + 1) items)
  | object members => bracketed l depth '{' '}' (printMembers l (depth + 1) members)

/-- The texts of the items of a list. -/
def printItems (l : Layout) (depth : Nat) : List Json → List Text
  | [] => []
  | v :: r => printAt l depth v :: printItems l depth r

/-- The texts of the members of an object. -/
def printMembers (l : Layout) (depth : Nat) : List (Text × Json) → List Text
  | [] => []
  | (k, v) :: r => (quoted k ++ l.colon ++ printAt l depth v) :: printMembers l depth r

end

/-- The text of a value. -/
def print (l : Layout) (v : Json) : Text :=
  printAt l 0 v

end CodingPolicy.Json
