/-
CodingPolicy/Text/CodePoint.lean

Code points. Most of them stand for a character. The others are the surrogates, the
numbers that 16-bit text sets aside for the halves of a pair: a text may hold one by
itself, though no bytes in UTF-8 are written for it.
-/
namespace CodingPolicy

/-- A code point. -/
inductive CodePoint where
  /-- A character. -/
  | char (c : Char)
  /-- The surrogate that is this far from the first. -/
  | surrogate (n : Fin 0x800)
  deriving DecidableEq, Repr, Inhabited

/-- A character is a code point. -/
instance : Coe Char CodePoint := ⟨.char⟩

namespace CodePoint

/-- The first of the surrogates that are the first half of a pair. -/
def firstHigh : Nat := 0xd800

/-- The first of the surrogates that are the second half of a pair. -/
def firstLow : Nat := 0xdc00

/-- The number of a code point. -/
def toNat : CodePoint → Nat
  | char c => c.toNat
  | surrogate n => firstHigh + n

/-- The code point of a number. -/
def ofNat (n : Nat) : CodePoint :=
  if h : firstHigh ≤ n ∧ n < firstHigh + 0x800 then .surrogate ⟨n - firstHigh, by omega⟩
  else .char (Char.ofNat n)

/-- A decimal digit. -/
def isDigit : CodePoint → Bool
  | char c => c.isDigit
  | surrogate _ => false

/-- A letter of the alphabet. -/
def isAlpha : CodePoint → Bool
  | char c => c.isAlpha
  | surrogate _ => false

/-- A letter of the alphabet or a decimal digit. -/
def isAlphanum (c : CodePoint) : Bool :=
  c.isAlpha || c.isDigit

/-- The code point in lower case; only letters of the alphabet have one. -/
def toLower : CodePoint → CodePoint
  | char c => .char c.toLower
  | surrogate n => .surrogate n

/-- A code point that is no character. -/
def isSurrogate : CodePoint → Bool
  | char _ => false
  | surrogate _ => true

theorem toNat_char (c : Char) : (char c).toNat = c.toNat := rfl

/-- The number of a character is not one of those set aside. -/
theorem toNat_ne_surrogate (c : Char) : c.toNat < firstHigh ∨ firstHigh + 0x800 ≤ c.toNat := by
  have := c.valid
  simp only [UInt32.isValidChar, Nat.isValidChar] at this
  have e : c.toNat = c.val.toNat := rfl
  unfold firstHigh
  omega

theorem ofNat_toNat (c : CodePoint) : ofNat c.toNat = c := by
  cases c with
  | char c =>
    have hno : ¬ (firstHigh ≤ c.toNat ∧ c.toNat < firstHigh + 0x800) := by
      have := toNat_ne_surrogate c
      omega
    rw [ofNat, toNat_char, dif_neg hno, Char.ofNat_toNat]
  | surrogate n =>
    rw [ofNat, dif_pos ⟨Nat.le_add_right _ _, Nat.add_lt_add_left n.isLt _⟩]
    exact congrArg surrogate (Fin.ext (Nat.add_sub_cancel_left firstHigh n))

theorem toNat_inj {c d : CodePoint} : c.toNat = d.toNat ↔ c = d := by
  refine ⟨fun h => ?_, congrArg toNat⟩
  rw [← ofNat_toNat c, h, ofNat_toNat]

theorem isDigit_iff_toNat {c : CodePoint} : c.isDigit = true ↔ 48 ≤ c.toNat ∧ c.toNat ≤ 57 := by
  cases c with
  | char c => exact Char.isDigit_iff_toNat
  | surrogate n =>
    have hle : 0xd800 ≤ (surrogate n).toNat := Nat.le_add_right _ _
    simp only [isDigit, Bool.false_eq_true, false_iff]
    omega

end CodePoint

end CodingPolicy
