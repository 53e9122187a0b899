/-
CodingPolicy/Text/Lines.lean

Line boundaries: the first line of a text, by every character that ends a
line, and the reading of the three common line ends as one newline.

Main result: a first line holds no line boundary (`not_isLineBreak_of_mem_firstLine`).
-/
import CodingPolicy.Text.Basic
import CodingPolicy.Text.Ranges

namespace CodingPolicy.Text

/-- A character that ends a line: line feed, vertical tab, form feed, carriage
return, the three upper separators, next line, line and paragraph separator. -/
def isLineBreak (c : CodePoint) : Bool :=
  inRanges [(0xa, 0xd), (0x1c, 0x1e), (0x85, 0x85), (0x2028, 0x2029)] c

/-- The text up to its first line boundary. -/
def firstLine (t : Text) : Text :=
  t.takeWhile fun c => !isLineBreak c

/-- Each carriage return, together with a line feed right after it, is read as
one newline. -/
def unifyNewlines : Text → Text
  | [] => []
  | .char '\r' :: .char '\n' :: r => .char '\n' :: unifyNewlines r
  | c :: r => (if c = '\r' then '\n' else c) :: unifyNewlines r

theorem not_isLineBreak_of_mem_firstLine {t : Text} {c : CodePoint} (h : c ∈ firstLine t) :
    isLineBreak c = false :=
  not_of_mem_takeWhile h

/-- A text without carriage returns is read as it stands. -/
theorem unifyNewlines_eq_self {t : Text} (h : .char '\r' ∉ t) : unifyNewlines t = t := by
  fun_induction unifyNewlines t with
  | case1 => rfl
  | case2 r ih => simp at h
  | case3 c r _ ih =>
    rw [List.mem_cons, not_or] at h
    rw [if_neg (Ne.symm h.1), ih h.2]

end CodingPolicy.Text
