/-
CodingPolicy/Text/Chars.lean

Texts in exchange with the world outside, which knows characters alone. A text comes
in as its characters, and goes out with a replacement character in the place of every
surrogate.
-/
import CodingPolicy.OrderedMap
import CodingPolicy.Text.Basic

namespace CodingPolicy

/-- The character that is shown for a code point. -/
def CodePoint.shown : CodePoint → Char
  | char c => c
  | surrogate _ => '\ufffd'

/-- The characters that are shown for a text. -/
def Text.chars (t : Text) : List Char :=
  t.map CodePoint.shown

/-- Characters are a text. -/
instance : Coe (List Char) Text := ⟨Text.ofChars⟩

/-- Lists of characters are texts. -/
instance : Coe (List (List Char)) (List Text) := ⟨List.map Text.ofChars⟩

/-- A text is shown as characters. -/
instance : Coe Text (List Char) := ⟨Text.chars⟩

/-- A text of characters is shown as it is. -/
theorem Text.chars_ofChars (chars : List Char) : (Text.ofChars chars).chars = chars := by
  rw [Text.chars, Text.ofChars, List.map_map]
  exact List.map_id chars

end CodingPolicy

/-- The value at a key that is given by its characters. -/
def Entries.get? {α : Type} (key : List Char) (entries : List (CodingPolicy.Text × α)) :
    Option α :=
  CodingPolicy.Entries.get? (CodingPolicy.Text.ofChars key) entries
