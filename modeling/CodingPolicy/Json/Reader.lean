/-
CodingPolicy/Json/Reader.lean

Reading JSON text. White space is the space, the tab, the line feed and the
carriage return; texts hold no bare control characters; of two members with
one name the later counts, at the place of the earlier; the names of the
infinities and of NaN are read as numbers. A whole number of more than 4300
digits is refused by name, every other fault is just a malformed text; the
fault that stands first in the text is the one that is reported.

The reader goes down with a bound on the number of nested calls. Every second
call takes at least one character, so twice the length of the text is enough,
and `read` hides the bound.
-/
import CodingPolicy.Json.Value
import CodingPolicy.OrderedMap
import CodingPolicy.Text.Quoted

namespace CodingPolicy.Json

open Text (doubleQuote backslash)

/-- Why a text is no JSON value. -/
inductive Fault where
  /-- The text does not follow the grammar. -/
  | malformed
  /-- A whole number has this many digits, which is too many. -/
  | tooManyDigits (count : Nat)
  deriving DecidableEq, Repr

/-- The largest number of digits of a whole number. -/
def digitLimit : Nat := 4300

/-- The fault in words, where it has any of its own. -/
def Fault.message : Fault → Text
  | .malformed => "malformed text".text
  | .tooManyDigits n =>
    "Exceeds the limit (".text ++ Number.natText digitLimit
      ++ " digits) for integer string conversion: value has ".text ++ Number.natText n
      ++ " digits; use sys.set_int_max_str_digits() to increase the limit".text

/-! ### White space and fixed words -/

/-- White space between the parts of a value. -/
def isBlank (c : CodePoint) : Bool :=
  c == ' ' || c == '\t' || c == '\n' || c == '\r'

/-- The text from its first character that is not white space. -/
def skipBlank (t : Text) : Text :=
  t.dropWhile isBlank

/-- The values that are written as a word. -/
def words : List (Text × Json) :=
  [("null".text, null), ("true".text, bool true), ("false".text, bool false),
    ("NaN".text, float .nan), ("Infinity".text, float (.infinity false)),
    ("-Infinity".text, float (.infinity true))]

/-- The value of the word that the text starts with, and the rest. -/
def readWord? (t : Text) : Option (Json × Text) :=
  words.findSome? fun w => if w.1.isPrefixOf t then some (w.2, t.drop w.1.length) else none

/-! ### Numbers -/

/-- The digits after a decimal point and the rest; nothing where no digit
follows a point. -/
def readFraction (t : Text) : Option (Text × Text) :=
  match t with
  | .char '.' :: r =>
    match Number.Binary64.digitRun r with
    | ([], _) => none
    | p => some p
  | _ => none

/-- The number that the text starts with, and the rest. A point or an exponent
without digits does not belong to the number. -/
def readNumber (t : Text) : Except Fault (Json × Text) :=
  let (negative, r) := match t with
    | .char '-' :: r => (true, r)
    | r => (false, r)
  let (whole, r) := Number.Binary64.digitRun r
  if whole = [] ∨ (whole.head? = some (.char '0') ∧ 1 < whole.length) then .error .malformed
  else
    let fraction := readFraction r
    let (part, r) := fraction.getD ([], r)
    let exponent := Number.Binary64.exponentPart r
    let (power, r) := exponent.getD (0, r)
    if fraction.isSome || exponent.isSome then
      let digits := Number.ofDigits (whole ++ part)
      .ok (float (.ofDecimal negative digits (power - part.length)), r)
    else if digitLimit < whole.length then .error (.tooManyDigits whole.length)
    else
      let n : Int := Number.ofDigits whole
      .ok (int (if negative then -n else n), r)

/-! ### Texts -/

/-- The character of a one-letter escape. -/
def escapedChar? (c : CodePoint) : Option CodePoint :=
  if c = doubleQuote ∨ c = backslash ∨ c = '/' then some c
  else if c = 'n' then some (.char '\n')
  else if c = 'r' then some (.char '\r')
  else if c = 't' then some (.char '\t')
  else if c = 'f' then some (.char '\x0c')
  else if c = 'b' then some (.char '\x08')
  else none

/-- The number of four hexadecimal digits. -/
def hexCode? (a b c d : CodePoint) : Option Nat := do
  let a ← Number.hexValue? a
  let b ← Number.hexValue? b
  let c ← Number.hexValue? c
  let d ← Number.hexValue? d
  return 0x1000 * a + 0x100 * b + 0x10 * c + d

/-- The character that two numbers in a row stand for, if they are the halves of a pair. -/
def joined? (m n : Nat) : Option CodePoint :=
  if CodePoint.firstHigh ≤ m ∧ m < CodePoint.firstLow ∧ CodePoint.firstLow ≤ n ∧ n < 0xe000 then
    some (.ofNat (0x10000 + (m - CodePoint.firstHigh) * 0x400 + (n - CodePoint.firstLow)))
  else none

/-- The character of a pair whose first half is the number and whose second half is the
escape that the text starts with. -/
def pairedWith? (m : Nat) : Text → Option CodePoint
  | .char '\\' :: .char 'u' :: k₁ :: k₂ :: k₃ :: k₄ :: _ =>
    (hexCode? k₁ k₂ k₃ k₄).bind (joined? m)
  | _ => none

/-- The result with a code point in front. -/
def push (c : CodePoint) : Except Fault (Text × Text) → Except Fault (Text × Text)
  | .ok (t, r) => .ok (c :: t, r)
  | .error e => .error e

/-- The result of reading what stands behind an escape, with the code point of the escape
in front. Where it is completed to a pair, the second half stands first in the result. -/
def pushEscape (m : Nat) (behind : Text) (result : Except Fault (Text × Text)) :
    Except Fault (Text × Text) :=
  match pairedWith? m behind, result with
  | some x, .ok (_ :: t, r) => .ok (x :: t, r)
  | _, result => push (.ofNat m) result

/-- The text up to the closing quotation mark, and the rest. A character beyond the 16-bit
range may stand as a pair of escapes, one directly behind the other. The half of a pair
by itself is the surrogate of its number. -/
def readText : Text → Except Fault (Text × Text)
  | [] => .error .malformed
  | c :: r =>
    if c = doubleQuote then .ok ([], r)
    else if c = backslash then
      match r with
      | .char 'u' :: h₁ :: h₂ :: h₃ :: h₄ :: s =>
        match hexCode? h₁ h₂ h₃ h₄ with
        | none => .error .malformed
        | some m => pushEscape m s (readText s)
      | e :: s =>
        match escapedChar? e with
        | some x => push x (readText s)
        | none => .error .malformed
      | [] => .error .malformed
    else if c.toNat < 0x20 then .error .malformed
    else push c (readText r)

/-! ### Values -/

mutual

/-- The value that the text starts with, and the rest. -/
def readValue : Nat → Text → Except Fault (Json × Text)
  | 0, _ => .error .malformed
  | _ + 1, [] => .error .malformed
  | bound + 1, c :: r =>
    if c = doubleQuote then do
      let (t, r) ← readText r
      return (string t, r)
    else if c = '[' then
      match skipBlank r with
      | .char ']' :: r => return (array [], r)
      | r => do
        let (items, r) ← readItems bound r
        return (array items, r)
    else if c = '{' then
      match skipBlank r with
      | .char '}' :: r => return (object [], r)
      | r => do
        let (members, r) ← readMembers bound r
        return (object (Entries.merge [] members), r)
    else
      match readWord? (c :: r) with
      | some p => .ok p
      | none => readNumber (c :: r)

/-- The items up to the closing bracket, at least one, and the rest. -/
def readItems : Nat → Text → Except Fault (List Json × Text)
  | 0, _ => .error .malformed
  | bound + 1, t => do
    let (v, r) ← readValue bound t
    match skipBlank r with
    | .char ']' :: r => return ([v], r)
    | .char ',' :: r => do
      let (vs, r) ← readItems bound (skipBlank r)
      return (v :: vs, r)
    | _ => .error .malformed

/-- The members up to the closing brace, at least one, and the rest. -/
def readMembers : Nat → Text → Except Fault (List (Text × Json) × Text)
  | 0, _ => .error .malformed
  | _ + 1, [] => .error .malformed
  | bound + 1, c :: r =>
    if c = doubleQuote then do
      let (k, r) ← readText r
      match skipBlank r with
      | .char ':' :: r => do
        let (v, r) ← readValue bound (skipBlank r)
        match skipBlank r with
        | .char '}' :: r => return ([(k, v)], r)
        | .char ',' :: r => do
          let (ms, r) ← readMembers bound (skipBlank r)
          return ((k, v) :: ms, r)
        | _ => .error .malformed
      | _ => .error .malformed
    else .error .malformed

end

/-- The value that a whole text is written for; white space may stand around it. -/
def read (t : Text) : Except Fault Json := do
  let (v, r) ← readValue (2 * t.length + 2) (skipBlank t)
  if skipBlank r = [] then return v else .error .malformed

end CodingPolicy.Json
