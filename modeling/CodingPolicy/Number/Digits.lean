/-
CodingPolicy/Number/Digits.lean

Whole numbers as text: plain decimal, a fixed number of hexadecimal digits,
and the value of a run of decimal digits.

Main result: reading the decimal text of a number gives the number
(`ofDigits_natText`).
-/
import CodingPolicy.Text.Basic

namespace CodingPolicy.Number

/-! ### Writing -/

/-- The decimal text of a natural number. -/
def natText (n : Nat) : Text :=
  Text.ofChars (Nat.toDigits 10 n)

/-- The decimal text of an integer, with a minus sign where it is negative. -/
def intText (i : Int) : Text :=
  if i < 0 then .char '-' :: natText i.natAbs else natText i.natAbs

/-- The number in lower-case hexadecimal, filled up with zeros to the width. -/
def hexText (width n : Nat) : Text :=
  let digits := Text.ofChars (Nat.toDigits 16 n)
  List.replicate (width - digits.length) (.char '0') ++ digits

/-! ### Reading -/

/-- The value of a run of decimal digits. -/
def ofDigits (digits : Text) : Nat :=
  digits.foldl (fun n c => 10 * n + (c.toNat - 48)) 0

/-- The value of a hexadecimal digit of either case. -/
def hexValue? (c : CodePoint) : Option Nat :=
  let n := c.toNat
  if 0x30 ≤ n ∧ n ≤ 0x39 then some (n - 48)
  else if 0x61 ≤ n ∧ n ≤ 0x66 then some (n - 87)
  else if 0x41 ≤ n ∧ n ≤ 0x46 then some (n - 55)
  else none

/-! ### Reading back -/

theorem ofDigits_append_singleton (t : Text) (c : CodePoint) :
    ofDigits (t ++ [c]) = 10 * ofDigits t + (c.toNat - 48) := by
  simp [ofDigits]

theorem toNat_digitChar_sub {d : Nat} (h : d < 10) : (Nat.digitChar d).toNat - 48 = d := by
  revert h
  revert d
  decide

/-- **The decimal text of a number has the number as its value.** -/
theorem ofDigits_natText (n : Nat) : ofDigits (natText n) = n := by
  induction n using Nat.strongRecOn with
  | ind n ih =>
    by_cases h : n < 10
    · rw [natText, Nat.toDigits_of_lt_base h]
      simpa [ofDigits, Text.ofChars, CodePoint.toNat] using toNat_digitChar_sub h
    · have hlast : natText n = natText (n / 10) ++ [.char (Nat.digitChar (n % 10))] := by
        rw [natText, Nat.toDigits_of_base_le (by decide) (by omega), Text.ofChars,
          List.map_append]
        rfl
      rw [hlast, ofDigits_append_singleton, ih (n / 10) (by omega), CodePoint.toNat_char,
        toNat_digitChar_sub (by omega)]
      omega

end CodingPolicy.Number
