/-
CodingPolicy/Number/Binary64.lean

Binary floating-point numbers of 64 bits: the number nearest to a decimal
fraction, and the shortest decimal digits that lead back to a number.

A finite number is a significand below 2^53 times a power of two not below
2^-1074; the significand is at least 2^52 unless the power is the least. A
fraction half-way between two numbers goes to the one whose significand is
even. The shortest digits are found on the coarsest decimal grid that has a
point in the interval of fractions leading to the number.
-/
import CodingPolicy.Number.Digits
import CodingPolicy.Text.Blank
import CodingPolicy.Text.Word

namespace CodingPolicy.Number

/-- A binary floating-point number of 64 bits. -/
inductive Binary64 where
  /-- The number `significand * 2 ^ exponent`, with its sign. -/
  | finite (negative : Bool) (significand : Nat) (exponent : Int)
  /-- A number too large to be finite. -/
  | infinity (negative : Bool)
  /-- No number. -/
  | nan
  deriving DecidableEq, Repr

/-- The least power of two of a finite number. -/
def leastExponent : Int := -1074

/-- The largest power of two of a finite number. -/
def largestExponent : Int := 971

/-- The quotient as a whole number, rounded to the nearest; a half goes to the
even neighbour. -/
def divNearest (n d : Nat) : Nat :=
  let q := n / d
  let r := n % d
  if 2 * r < d then q
  else if d < 2 * r then q + 1
  else q + q % 2

/-- The fraction divided by a power of two, as a fraction. -/
def scaleDown (n d : Nat) (exponent : Int) : Nat × Nat :=
  if 0 ≤ exponent then (n, d * Nat.pow 2 exponent.toNat) else (n * Nat.pow 2 (-exponent).toNat, d)

/-- The exponent with which the whole part of a positive fraction takes 53
bits, but never less than the least. -/
def exponentFor (n d : Nat) : Int :=
  let guess : Int := (n.log2 : Int) - d.log2 - 52
  let (a, b) := scaleDown n d guess
  max leastExponent (if a / b < Nat.pow 2 52 then guess - 1 else guess)

namespace Binary64

/-- Zero, of the given sign. -/
def zero (negative : Bool) : Binary64 :=
  finite negative 0 0

/-- The number nearest to a fraction with a positive denominator. -/
def ofRatio (negative : Bool) (n d : Nat) : Binary64 :=
  if n = 0 then zero negative
  else
    let exponent := exponentFor n d
    let (a, b) := scaleDown n d exponent
    let significand := divNearest a b
    let (significand, exponent) :=
      if significand = Nat.pow 2 53 then (Nat.pow 2 52, exponent + 1) else (significand, exponent)
    if significand = 0 then zero negative
    else if largestExponent < exponent then infinity negative
    else finite negative significand exponent

/-- The number nearest to `digits * 10 ^ power`. What is plainly beyond the
finite numbers, or plainly nearest to zero, is settled without computing the
power. -/
def ofDecimal (negative : Bool) (digits : Nat) (power : Int) : Binary64 :=
  let magnitude : Int := (natText digits).length + power
  if digits = 0 ∨ magnitude < -330 then zero negative
  else if 330 < magnitude then infinity negative
  else if 0 ≤ power then ofRatio negative (digits * Nat.pow 10 power.toNat) 1
  else ofRatio negative digits (Nat.pow 10 (-power).toNat)

/-! ### Decimal text as input -/

/-- The longest run of decimal digits that the text starts with, and the rest. -/
def digitRun (t : Text) : Text × Text :=
  (t.takeWhile CodePoint.isDigit, t.dropWhile CodePoint.isDigit)

/-- The power of ten written after the letter `e`, which has at least one
digit; nothing if the text does not go on this way. -/
def exponentPart (t : Text) : Option (Int × Text) :=
  match t with
  | e :: r =>
    if e = 'e' ∨ e = 'E' then
      let (negative, r) := match r with
        | .char '-' :: s => (true, s)
        | .char '+' :: s => (false, s)
        | s => (false, s)
      match digitRun r with
      | ([], _) => none
      | (digits, rest) =>
        let n : Int := ofDigits digits
        some (if negative then -n else n, rest)
    else none
  | [] => none

/-- White space that may stand around a number: all but the separators U+001C to
U+001F. -/
def isPadding (c : CodePoint) : Bool :=
  Text.isBlank c && !(0x1c ≤ c.toNat && c.toNat ≤ 0x1f)

/-- A decimal digit of any script as the same digit of ASCII; another character
is left as it is. -/
def plainDigit (c : CodePoint) : CodePoint :=
  ((Text.digitValue? c).map fun n => .char n.digitChar).getD c

/-- The text without its underscores, each of which must stand between two
digits. -/
def joinDigits? : Text → Option Text
  | [] => some []
  | .char '_' :: _ => none
  | a :: .char '_' :: b :: r =>
    if a.isDigit && b.isDigit then (joinDigits? (b :: r)).map (a :: ·) else none
  | a :: r => (joinDigits? r).map (a :: ·)

/-- The number nearest to a plain decimal text: an optional sign, digits with or
without a point, and an optional power of ten. The infinities and NaN are
written by name, in letters of either case. -/
def ofPlainText? (t : Text) : Option Binary64 :=
  let (negative, t) := match t with
    | .char '-' :: r => (true, r)
    | .char '+' :: r => (false, r)
    | r => (false, r)
  let name := t.map CodePoint.toLower
  if name = "inf".text ∨ name = "infinity".text then some (infinity negative)
  else if name = "nan".text then some nan
  else
    let (whole, r) := digitRun t
    let (part, r) := match r with
      | .char '.' :: s => digitRun s
      | s => ([], s)
    let (power, r) := (exponentPart r).getD (0, r)
    if whole ++ part = [] ∨ r ≠ [] then none
    else some (ofDecimal negative (ofDigits (whole ++ part)) (power - part.length))

/-- The number nearest to a decimal text. Digits of every script count, white
space may stand around the number, and underscores between digits. -/
def ofText? (t : Text) : Option Binary64 :=
  (joinDigits? ((Text.dropTrailing isPadding (t.dropWhile isPadding)).map plainDigit)).bind
    ofPlainText?

/-! ### Shortest digits -/

/-- Quarters of the unit in the last place: how far the interval that leads
to the number reaches below it and above it. Below a power of two the numbers
are twice as dense. -/
def reach (significand : Nat) (exponent : Int) : Nat × Nat :=
  if significand = Nat.pow 2 52 ∧ leastExponent < exponent then (1, 2) else (2, 2)

/-- The point of the grid of multiples of `10 ^ power` that leads to the
number: of the two neighbours of the number, the nearer one that lies in the
interval, and the even one of two equally near. -/
def gridPoint? (m : Nat) (exponent power : Int) : Option Nat :=
  let (below, above) := reach m exponent
  -- all in units of a quarter of the last place, over the grid's unit
  let (unit, grid) :=
    let (a, b) := scaleDown 1 1 (-(exponent - 2))
    if 0 ≤ power then (a, b * Nat.pow 10 power.toNat) else (a * Nat.pow 10 (-power).toNat, b)
  let value := 4 * m * unit
  let lower := (4 * m - below) * unit
  let upper := (4 * m + above) * unit
  let closed := m % 2 = 0
  let inside (x : Nat) : Bool :=
    if closed then lower ≤ x && x ≤ upper else lower < x && x < upper
  let down := value / grid
  let near := divNearest value grid
  let far := if near = down then down + 1 else down
  if inside (near * grid) then some near
  else if inside (far * grid) then some far
  else none

/-- The fewest digits that lead to a positive finite number, as a whole number
with a power of ten: those of the coarsest grid with a point in the interval. -/
def shortest (significand : Nat) (exponent : Int) : Nat × Int :=
  let top : Int := ((significand.log2 + 2 : Int) + exponent) * 30103 / 100000 + 1
  ((List.range 30).findSome? fun (i : Nat) =>
    let power := top - (i : Nat)
    (gridPoint? significand exponent power).map fun n => (n, power)).getD (significand, exponent)

/-! ### Text -/

/-- The text of an exponent of ten: a sign and at least two digits. -/
def exponentText (e : Int) : Text :=
  let digits := natText e.natAbs
  let sign : CodePoint := if e < 0 then .char '-' else .char '+'
  sign :: List.replicate (2 - digits.length) (.char '0') ++ digits

/-- The text of digits with a decimal point after the first `point` of them.
Magnitudes from 10^-4 to below 10^16 are written out, the others with a power
of ten. -/
def pointed (digits : Text) (point : Int) : Text :=
  if point ≤ -4 ∨ 16 < point then
    let mantissa := match digits with
      | [] => []
      | [d] => [d]
      | d :: r => d :: .char '.' :: r
    mantissa ++ .char 'e' :: exponentText (point - 1)
  else if point ≤ 0 then
    .char '0' :: .char '.' :: List.replicate (-point).toNat (.char '0') ++ digits
  else
    let n := point.toNat
    if digits.length ≤ n then
      digits ++ List.replicate (n - digits.length) (.char '0') ++ [.char '.', .char '0']
    else digits.take n ++ .char '.' :: digits.drop n

/-- The shortest text that leads to the number. -/
def text : Binary64 → Text
  | nan => "nan".text
  | infinity negative => (if negative then [.char '-'] else []) ++ "inf".text
  | finite negative significand exponent =>
    let magnitude :=
      if significand = 0 then "0.0".text
      else
        let (n, power) := shortest significand exponent
        let digits := natText n
        pointed digits (digits.length + power)
    (if negative then [.char '-'] else []) ++ magnitude

/-! ### As a fraction -/

/-- The number is a whole number: then its value. -/
def toInt? : Binary64 → Option Int
  | finite negative significand exponent =>
    let value : Option Nat :=
      if 0 ≤ exponent then some (significand * Nat.pow 2 exponent.toNat)
      else
        let d := Nat.pow 2 (-exponent).toNat
        if significand % d = 0 then some (significand / d) else none
    value.map fun n => if negative then -(n : Int) else n
  | _ => none

end Binary64

end CodingPolicy.Number
