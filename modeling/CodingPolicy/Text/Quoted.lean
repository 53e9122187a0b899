/-
CodingPolicy/Text/Quoted.lean

Quoted texts, as they are shown inside lists, maps and messages. The quotation
mark is the apostrophe, unless the text holds an apostrophe and no double
quote. Inside, the mark and the backslash are escaped, tab, line feed and
carriage return have escapes of their own, and every other character that is
not printable is shown by its number.
-/
import CodingPolicy.Number.Digits
import CodingPolicy.Text.Printable

namespace CodingPolicy.Text

/-- The apostrophe, the usual quotation mark. -/
def apostrophe : CodePoint := '\x27'

/-- The double quote. -/
def doubleQuote : CodePoint := '\x22'

/-- The backslash, which starts an escape. -/
def backslash : CodePoint := '\x5c'

/-- The mark that a text is quoted with. -/
def quotationMark (t : Text) : CodePoint :=
  if apostrophe ∈ t ∧ doubleQuote ∉ t then doubleQuote else apostrophe

/-- The escape of a character by its number, as short as the number allows. -/
def numericEscape (c : CodePoint) : Text :=
  let n := c.toNat
  if n < 0x100 then backslash :: .char 'x' :: Number.hexText 2 n
  else if n < 0x10000 then backslash :: .char 'u' :: Number.hexText 4 n
  else backslash :: .char 'U' :: Number.hexText 8 n

/-- The form of one character between quotation marks. -/
def quotedChar (mark c : CodePoint) : Text :=
  if c = mark ∨ c = backslash then [backslash, c]
  else if c = '\t' then [backslash, 't']
  else if c = '\n' then [backslash, 'n']
  else if c = '\r' then [backslash, 'r']
  else if isPrintable c then [c]
  else numericEscape c

/-- The text between quotation marks. -/
def quote (t : Text) : Text :=
  let mark := quotationMark t
  mark :: t.flatMap (quotedChar mark) ++ [mark]

/-- Bytes between quotation marks, after the letter `b`; only ASCII counts as
printable. -/
def quoteBytes (bytes : List UInt8) : Text :=
  let t : Text := bytes.map fun b => CodePoint.ofNat b.toNat
  let mark := quotationMark t
  let shown (c : CodePoint) : Text :=
    if c.toNat < 0x80 then quotedChar mark c else numericEscape c
  .char 'b' :: mark :: t.flatMap shown ++ [mark]

end CodingPolicy.Text
