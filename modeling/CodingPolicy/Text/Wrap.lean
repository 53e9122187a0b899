/-
CodingPolicy/Text/Wrap.lean

Breaking a paragraph into lines of bounded width.

The paragraph is first flattened: tabs become spaces up to the next multiple
of eight, and the other ASCII white space becomes a space. It is then cut into
pieces between which a line may end: runs of spaces, words, the parts of a
hyphenated word with their hyphens, and dashes between words. Lines are filled
with pieces from left to right; a blank piece is dropped at the start of every
line but the first and at the end of every line, and a piece longer than a
whole line is broken, after a hyphen where there is one.

Main results: the pieces put together are the flattened text (`flatten_pieces`),
and every line takes something away (`size_takeLine_lt`), so the setting of lines
ends.
-/
import CodingPolicy.Text.Blank
import CodingPolicy.Text.Word

namespace CodingPolicy.Text.Wrap

/-! ### Flattening -/

/-- The white space at which lines may end: that of ASCII alone, so that
no-break spaces keep words together. -/
def isSpace (c : CodePoint) : Bool :=
  c == ' ' || (0x9 ≤ c.toNat && c.toNat ≤ 0xd)

/-- Tabs as spaces up to the next multiple of eight, counted from the last line
end; `column` is where the text starts. -/
def expandTabs (column : Nat) : Text → Text
  | [] => []
  | c :: r =>
    if c = '\t' then
      let width := 8 - column % 8
      List.replicate width (.char ' ') ++ expandTabs (column + width) r
    else if c = '\n' ∨ c = '\r' then c :: expandTabs 0 r
    else c :: expandTabs (column + 1) r

/-- The paragraph as one line. -/
def flatten (t : Text) : Text :=
  (expandTabs 0 t).map fun c => if isSpace c then ' ' else c

/-! ### Pieces -/

/-- A character after which a dash may start a new piece. -/
def isWordEnd (c : CodePoint) : Bool :=
  isWordChar c || c == '!' || c == '\x22' || c == '\x27' || c == '&' || c == '.' || c == ','
    || c == '?'

/-- The text goes on with two or more hyphens and then a word character. -/
def dashAhead (t : Text) : Bool :=
  match t with
  | .char '-' :: .char '-' :: r =>
    match r.dropWhile (· == .char '-') with
    | [] => false
    | c :: _ => isWordChar c
  | _ => false

/-- The last character passed, if any, ends a word. -/
def wordEndBehind (behind : Text) : Bool :=
  match behind with
  | [] => false
  | c :: _ => isWordEnd c

/-- A hyphen that stands between `behind` (nearest character first) and
`ahead` may end a line: two letters or a letter, a hyphen and a letter come
before it, and two letters, perhaps with a hyphen between them, come after. -/
def hyphenBreaks (behind ahead : Text) : Bool :=
  let before := match behind with
    | a :: .char '-' :: b :: _ => isLetter a && isLetter b
    | a :: b :: _ => isLetter a && isLetter b
    | _ => false
  let after := match ahead with
    | a :: .char '-' :: b :: _ => isLetter a && isLetter b
    | a :: b :: _ => isLetter a && isLetter b
    | _ => false
  before && after

/-- What kind of piece is being read. -/
inductive Mode where
  /-- No character of the piece has been read yet. -/
  | fresh
  /-- A run of spaces. -/
  | spaces
  /-- A dash between words. -/
  | dash
  /-- A word or a part of one. -/
  | word
  deriving DecidableEq, Repr

/-- The kind of the piece that starts where `ahead` does. -/
def startMode (behind ahead : Text) : Mode :=
  match ahead with
  | [] => .fresh
  | c :: _ =>
    if isSpace c then .spaces
    else if wordEndBehind behind && dashAhead ahead then .dash
    else .word

/-- The piece being read ends before the next character. -/
def endsBefore (mode : Mode) (behind ahead : Text) : Bool :=
  match mode, ahead with
  | .fresh, _ => false
  | _, [] => true
  | .spaces, c :: _ => !isSpace c
  | .dash, c :: _ => c != '-'
  | .word, c :: _ => isSpace c || (wordEndBehind behind && dashAhead ahead)

/-- The piece read so far, in reverse, as a list of at most one piece. -/
def close (current : Text) : List Text :=
  if current = [] then [] else [current.reverse]

/-- The pieces of `ahead`, where `behind` is the text already passed and
`current` the part of it that belongs to the open piece, both in reverse. -/
def piecesFrom (mode : Mode) (behind current : Text) : Text → List Text
  | [] => close current
  | c :: r =>
    if endsBefore mode behind (c :: r) || mode == .fresh then
      close current ++ piecesFrom (startMode behind (c :: r)) (c :: behind) [c] r
    else if mode == .word && c == '-' && hyphenBreaks behind r then
      close (c :: current) ++ piecesFrom .fresh (c :: behind) [] r
    else
      piecesFrom mode (c :: behind) (c :: current) r

/-- The pieces of a flattened paragraph. -/
def pieces (t : Text) : List Text :=
  piecesFrom .fresh [] [] t

theorem flatten_close (current : Text) : (close current).flatten = current.reverse := by
  unfold close
  split <;> simp_all

theorem flatten_piecesFrom (mode : Mode) (behind current t : Text) :
    (piecesFrom mode behind current t).flatten = current.reverse ++ t := by
  induction t generalizing mode behind current with
  | nil => simp [piecesFrom, flatten_close]
  | cons c r ih =>
    simp only [piecesFrom]
    split
    · simp [ih, flatten_close]
    · split
      · simp [ih, flatten_close]
      · simp [ih]

/-- **The pieces put together are the text.** -/
theorem flatten_pieces (t : Text) : (pieces t).flatten = t := by
  simp [pieces, flatten_piecesFrom]

/-! ### Lines -/

/-- The pieces that fit into the room left, and the others. -/
def takeFitting (room : Nat) : List Text → List Text × List Text
  | [] => ([], [])
  | p :: ps =>
    if p.length ≤ room then
      let rest := takeFitting (room - p.length) ps
      (p :: rest.1, rest.2)
    else ([], p :: ps)

/-- How much of a piece that is longer than any line goes into the room left:
up to its last hyphen there, if something other than hyphens comes before it,
and else as much as there is room for. -/
def breakPoint (room : Nat) (piece : Text) : Nat :=
  let head := piece.take room
  let upToHyphen := dropTrailing (· ≠ .char '-') head
  if upToHyphen.length ≥ 2 ∧ upToHyphen.dropLast.any (· ≠ .char '-') then upToHyphen.length
  else room

/-- The pieces without a blank one at their end. -/
def dropBlankLast (line : List Text) : List Text :=
  match line.getLast? with
  | none => line
  | some p => if isBlankText p then line.dropLast else line

/-- The pieces without a blank one at their start. -/
def dropBlankFirst (ps : List Text) : List Text :=
  match ps with
  | [] => []
  | p :: r => if isBlankText p then r else p :: r

/-- The pieces of one line, blank end included, and the pieces left over. -/
def takeLine (width : Nat) (ps : List Text) : List Text × List Text :=
  let fitting := takeFitting width ps
  match fitting.2 with
  | [] => fitting
  | p :: r =>
    if p.length > width then
      let cut := breakPoint (width - fitting.1.flatten.length) p
      (fitting.1 ++ [p.take cut], p.drop cut :: r)
    else fitting

/-- What is left to be set: the characters of the pieces, and one more for
each piece. -/
def size (ps : List Text) : Nat :=
  ps.flatten.length + ps.length

theorem size_cons (p : Text) (ps : List Text) : size (p :: ps) = p.length + 1 + size ps := by
  simp only [size, List.flatten_cons, List.length_append, List.length_cons]
  omega

theorem size_takeFitting (room : Nat) (ps : List Text) :
    size (takeFitting room ps).1 + size (takeFitting room ps).2 = size ps := by
  induction ps generalizing room with
  | nil => simp [takeFitting, size]
  | cons p r ih =>
    simp only [takeFitting]
    split
    · have := ih (room - p.length)
      simp only [size_cons]
      omega
    · simp [size]

theorem takeFitting_fst_eq_nil {room : Nat} {p : Text} {r : List Text}
    (h : (takeFitting room (p :: r)).1 = []) : room < p.length := by
  simp only [takeFitting] at h
  split at h
  · simp at h
  · omega

theorem breakPoint_pos {room : Nat} (piece : Text) (h : 0 < room) :
    0 < breakPoint room piece := by
  simp only [breakPoint]
  split <;> omega

/-- Each line takes something away, so long as it may hold a character. -/
theorem size_takeLine_lt {width : Nat} {ps : List Text} (hw : 0 < width) (h : ps ≠ []) :
    size (takeLine width ps).2 < size ps := by
  have hs := size_takeFitting width ps
  obtain ⟨p, r, rfl⟩ := List.exists_cons_of_ne_nil h
  simp only [takeLine]
  rcases e₁ : (takeFitting width (p :: r)).1 with - | ⟨q, qs⟩
  · have hp := takeFitting_fst_eq_nil e₁
    have e₂ : (takeFitting width (p :: r)).2 = p :: r := by
      simp only [takeFitting] at e₁ ⊢
      split at e₁
      · simp at e₁
      · next hn => simp [hn]
    simp only [e₂, hp, gt_iff_lt, if_true, List.flatten_nil, List.length_nil, Nat.sub_zero,
      size_cons, List.length_drop]
    have := breakPoint_pos p hw
    omega
  · rw [e₁, size_cons] at hs
    split
    · next e₂ => rw [e₂] at hs ⊢; simp only [size] at *; omega
    · next p' r' e₂ =>
      rw [e₂] at hs
      split
      · simp only [size_cons, List.length_drop] at *
        omega
      · rw [e₂]; omega

/-- The lines of the given pieces; `started` tells that a line came before.
A width of nothing is read as a width of one character. -/
def lines (width : Nat) (started : Bool) (ps : List Text) : List Text :=
  let ps' := if started then dropBlankFirst ps else ps
  if h : ps' = [] then []
  else
    let taken := takeLine (width + 1) ps'
    let line := dropBlankLast taken.1
    if line = [] then lines width started taken.2
    else line.flatten :: lines width true taken.2
termination_by size ps
decreasing_by
  all_goals
    have hlt := @size_takeLine_lt (width + 1) _ (by omega) h
    have hle : size (if started then dropBlankFirst ps else ps) ≤ size ps := by
      split
      · unfold dropBlankFirst
        split
        · simp
        · split
          · simp only [size_cons]; omega
          · simp
      · simp
    exact Nat.lt_of_lt_of_le hlt hle

/-- The lines of a paragraph, each at most `width` characters long. -/
def wrap (width : Nat) (t : Text) : List Text :=
  lines (width - 1) false (pieces (flatten t))

end CodingPolicy.Text.Wrap
