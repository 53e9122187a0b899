/-
CodingPolicy/Text/Blank.lean

White space of every script, and trimming by it. The separators U+001C to
U+001F and the next-line character U+0085 count as white space.
-/
import CodingPolicy.Text.Basic
import CodingPolicy.Text.Ranges

namespace CodingPolicy.Text

/-- White space. -/
def isBlank (c : CodePoint) : Bool :=
  inRanges [(0x9, 0xd), (0x1c, 0x20), (0x85, 0x85), (0xa0, 0xa0), (0x1680, 0x1680),
    (0x2000, 0x200a), (0x2028, 0x2029), (0x202f, 0x202f), (0x205f, 0x205f), (0x3000, 0x3000)] c

/-- A text of white space only; the empty text is one. -/
def isBlankText (t : Text) : Bool :=
  t.all isBlank

/-- The text without the white space at its end. -/
def trimEnd (t : Text) : Text :=
  dropTrailing isBlank t

/-- The text without the white space at both ends. -/
def trim (t : Text) : Text :=
  trimEnd (t.dropWhile isBlank)

theorem dropWhile_eq_nil_of_all {p : CodePoint → Bool} {t : Text} (h : t.all p = true) :
    t.dropWhile p = [] := by
  induction t with
  | nil => rfl
  | cons c r ih => simp_all

end CodingPolicy.Text
