/-
CodingPolicy/Text/Table.lean

A table of names and descriptions in two columns without a header. The names
are padded to the longest, the descriptions are wrapped, and the further lines
of a description stand under its first.
-/
import CodingPolicy.Text.Wrap

namespace CodingPolicy.Text.Table

/-- The space between the two columns. -/
def gap : Text := "  ".text

/-- The width that a table has unless another is asked for. -/
def defaultWidth : Int := 80

/-- The least width of the description column, whatever the table's width. -/
def leastTextWidth : Nat := 20

/-- The width of the name column. -/
def nameWidth (rows : List (Text × Text)) : Nat :=
  rows.foldl (fun w row => max w row.1.length) 0

/-- The width of the description column of a table of the given width. -/
def textWidth (width : Int) (indent : Nat) : Nat :=
  max (width - indent).toNat leastTextWidth

/-- The wrapped parts of a description; at least one, which may be empty. -/
def parts (width : Nat) (description : Text) : List Text :=
  match Wrap.wrap width description with
  | [] => [[]]
  | ps => ps

/-- The lines of one row: the padded name with the first part of the
description, cut off after its last visible character, then the other parts
under the first. -/
def rowLines (names texts : Nat) (row : Text × Text) : List Text :=
  match parts texts row.2 with
  | [] => []
  | first :: rest =>
    trimEnd (padRight names row.1 ++ gap ++ first) ::
      rest.map fun part => List.replicate (names + gap.length) (.char ' ') ++ part

/-- The table's text; nothing for no rows. -/
def render (rows : List (Text × Text)) (width : Int) : Text :=
  let names := nameWidth rows
  let texts := textWidth width (names + gap.length)
  joinWith [.char '\n'] (rows.flatMap (rowLines names texts))

end CodingPolicy.Text.Table
