/-
CodingPolicy/Proofs/Numbers.lean

Whole numbers in JSON text.  The reader takes digits as long as there are any, and
then looks for a point or an exponent, so a number is read from its text only where
what is behind it does not go on with one of these (`Json.EndsNumber`).

Main results: a printed number is read back, unless it has more digits than the limit
(`Json.readNumber_intText`), a number of more digits is refused
(`Json.readNumber_of_digits`), and digits outside of JSON are read as the binary number
nearest to theirs (`Number.Binary64.ofText?_of_digits`).
-/
import CodingPolicy.Json.Reader

namespace CodingPolicy

/-! ### Decimal text -/

namespace Number

theorem isDigit_of_mem_natText {n : Nat} {c : CodePoint} (h : c ∈ natText n) :
    c.isDigit = true := by
  obtain ⟨x, hx, rfl⟩ := List.mem_map.1 h
  exact Nat.isDigit_of_mem_toDigits (by decide) (by decide) hx

/-- The text of a number starts with a digit, which is zero for the number zero alone. -/
theorem natText_eq_cons (n : Nat) :
    ∃ c r, natText n = c :: r ∧ c.isDigit = true ∧ (c = '0' → r = []) := by
  suffices h : ∃ c r, natText n = c :: r ∧ (c = '0' → r = []) by
    obtain ⟨c, r, hn, hzero⟩ := h
    have hc : c ∈ natText n := by
      rw [hn]
      exact .head _
    exact ⟨c, r, hn, isDigit_of_mem_natText hc, hzero⟩
  induction n using Nat.strongRecOn with
  | ind n ih =>
    by_cases h : n < 10
    · rw [natText, Nat.toDigits_of_lt_base h]
      exact ⟨_, _, rfl, fun _ => rfl⟩
    · -- the digit in front is that of the number without its last digit, which is not zero
      obtain ⟨c, r, hn, hzero⟩ := ih (n / 10) (by omega)
      have hne : c ≠ '0' := by
        rintro rfl
        have hvalue := ofDigits_natText (n / 10)
        rw [hn, hzero rfl] at hvalue
        have : ofDigits [.char '0'] = 0 := rfl
        omega
      rw [natText] at hn
      rw [natText, Nat.toDigits_of_base_le (by decide) (by omega), Text.ofChars, List.map_append]
      rw [Text.ofChars] at hn
      rw [hn, List.cons_append]
      exact ⟨c, _, rfl, fun he => absurd he hne⟩

end Number

namespace Json

open Number (natText intText)

variable {c : CodePoint} {r rest : Text}

/-! ### Runs of digits -/

theorem ne_of_isDigit {x : CodePoint} (hc : c.isDigit = true) (hx : x.isDigit = false) : c ≠ x := by
  rintro rfl
  rw [hc] at hx
  cases hx

/-- A number that stands before the text ends where the text starts. -/
def EndsNumber (rest : Text) : Prop :=
  ∀ c, rest.head? = some c → c.isDigit = false ∧ c ≠ '.' ∧ c ≠ 'e' ∧ c ≠ 'E'

theorem endsNumber_nil : EndsNumber [] := nofun

theorem endsNumber_cons (hc : c.isDigit = false ∧ c ≠ '.' ∧ c ≠ 'e' ∧ c ≠ 'E') (r : Text) :
    EndsNumber (c :: r) := by
  intro d hd
  cases hd
  exact hc

/-- White space ends a number, and so does what ends one behind it. -/
theorem endsNumber_append {b : Text} (hb : ∀ c ∈ b, isBlank c = true) (hr : EndsNumber rest) :
    EndsNumber (b ++ rest) := by
  cases b with
  | nil => exact hr
  | cons c b =>
    refine endsNumber_cons ?_ _
    have hblank : isBlank c = true := hb c (.head _)
    simp only [isBlank, Bool.or_eq_true, beq_iff_eq] at hblank
    rcases hblank with ((rfl | rfl) | rfl) | rfl <;> decide

/-- Digits are taken up to what ends the number. -/
theorem digitRun_append {t : Text} (ht : ∀ x ∈ t, x.isDigit = true) (hr : EndsNumber rest) :
    Number.Binary64.digitRun (t ++ rest) = (t, rest) := by
  have hnone : rest.takeWhile CodePoint.isDigit = [] ∧ rest.dropWhile CodePoint.isDigit = rest := by
    cases rest with
    | nil => exact ⟨rfl, rfl⟩
    | cons c r => simp [hr c rfl]
  rw [Number.Binary64.digitRun, List.takeWhile_append_of_pos ht, List.dropWhile_append_of_pos ht,
    hnone.1, hnone.2, List.append_nil]

/-- Without a point and an exponent a number is whole. -/
theorem whole_of_endsNumber (hr : EndsNumber rest) :
    readFraction rest = none ∧ Number.Binary64.exponentPart rest = none := by
  cases rest with
  | nil => exact ⟨rfl, rfl⟩
  | cons c r =>
    obtain ⟨-, hpoint, he, hE⟩ := hr c rfl
    constructor
    · unfold readFraction
      split
      · next h => exact absurd (List.cons.inj h).1 hpoint
      · rfl
    · simp [Number.Binary64.exponentPart, he, hE]

/-! ### Reading a number -/

/-- Digits without zeros in front, with or without a minus sign, are read as a whole
number, unless there are too many of them. -/
theorem readNumber_append {sign : Text} (hsign : sign = [] ∨ sign = [.char '-'])
    (hd : ∀ x ∈ c :: r, x.isDigit = true) (h0 : c = '0' → r = []) (hr : EndsNumber rest) :
    readNumber (sign ++ (c :: r ++ rest)) =
      if digitLimit < (c :: r).length then .error (.tooManyDigits (c :: r).length)
      else
        .ok (int (if sign = [] then Number.ofDigits (c :: r) else -Number.ofDigits (c :: r)),
          rest) := by
  obtain ⟨hfraction, hexponent⟩ := whole_of_endsNumber hr
  have hrun := digitRun_append hd hr
  have hzero : ¬ (c :: r = [] ∨ (c :: r).head? = some (.char '0') ∧ 1 < (c :: r).length) := by
    rintro (h | ⟨h, hlong⟩)
    · cases h
    · rw [h0 (Option.some.inj h)] at hlong
      exact absurd hlong (Nat.lt_irrefl 1)
  unfold readNumber
  split
  next negative digits e =>
    have he : digits = c :: r ++ rest ∧ (negative = true ↔ sign ≠ []) := by
      rcases hsign with rfl | rfl
      · split at e
        · next h => exact absurd (List.cons.inj h).1 (ne_of_isDigit (hd c (.head _)) rfl)
        · cases e
          exact ⟨rfl, by simp⟩
      · cases e
        exact ⟨rfl, by simp⟩
    rw [he.1, hrun]
    dsimp only
    rw [if_neg hzero, hfraction, Option.getD_none]
    dsimp only
    rw [hexponent]
    by_cases hs : sign = []
    · have hnegative : negative = false := by
        cases negative
        · rfl
        · exact absurd hs (he.2.1 rfl)
      simp [hs, hnegative]
    · have hnegative : negative = true := he.2.2 hs
      simp [hs, hnegative]

/-- A whole number of more digits than the limit is refused by their number. -/
theorem readNumber_of_digits (hc : c.isDigit = true) (h0 : c ≠ '0')
    (hr : ∀ x ∈ r, x.isDigit = true) (hl : digitLimit < (c :: r).length) :
    readNumber (c :: r) = .error (.tooManyDigits (c :: r).length) := by
  have h := readNumber_append (.inl rfl) (List.forall_mem_cons.2 ⟨hc, hr⟩)
    (fun h => absurd h h0) endsNumber_nil
  rw [if_pos hl, List.append_nil, List.nil_append] at h
  exact h

/-- **A whole number is read back from its text**, if it does not have too many digits
and what is behind it ends it. -/
theorem readNumber_intText {i : Int} (hl : (natText i.natAbs).length ≤ digitLimit)
    (hr : EndsNumber rest) : readNumber (intText i ++ rest) = .ok (int i, rest) := by
  obtain ⟨c, r, hn, -, h0⟩ := Number.natText_eq_cons i.natAbs
  have hd : ∀ x ∈ c :: r, x.isDigit = true := by
    rw [← hn]
    exact fun x => Number.isDigit_of_mem_natText
  have hvalue : Number.ofDigits (c :: r) = i.natAbs := by rw [← hn, Number.ofDigits_natText]
  have hlimit : ¬ digitLimit < (c :: r).length := by
    rw [← hn]
    omega
  unfold intText
  split
  · next hi =>
    have h := readNumber_append (.inr rfl) hd h0 hr
    rw [if_neg hlimit, if_neg (by simp), hvalue, List.singleton_append] at h
    have habs : -(i.natAbs : Int) = i := by omega
    rw [hn, List.cons_append, h, habs]
  · next hi =>
    have h := readNumber_append (.inl rfl) hd h0 hr
    rw [if_neg hlimit, if_pos rfl, hvalue, List.nil_append] at h
    have habs : (i.natAbs : Int) = i := by omega
    rw [hn, h, habs]

/-- A digit starts no word. -/
theorem readWord?_of_digit (hc : c.isDigit = true) : readWord? (c :: r) = none := by
  have hne : ∀ {x : CodePoint}, x.isDigit = false → ¬ x = c :=
    fun hx h => ne_of_isDigit hc hx h.symm
  have hn : ¬ .char 'n' = c := hne rfl
  have ht : ¬ .char 't' = c := hne rfl
  have hf : ¬ .char 'f' = c := hne rfl
  have hN : ¬ .char 'N' = c := hne rfl
  have hI : ¬ .char 'I' = c := hne rfl
  have hminus : ¬ .char '-' = c := hne rfl
  simp [readWord?, words, String.text, Text.ofChars, hn, ht, hf, hN, hI, hminus]

/-- A minus sign with a digit behind it starts no word either. -/
theorem readWord?_of_minus (hc : c.isDigit = true) : readWord? (.char '-' :: c :: r) = none := by
  have hI : ¬ .char 'I' = c := fun h => ne_of_isDigit hc rfl h.symm
  simp [readWord?, words, String.text, Text.ofChars, hI]

end Json

namespace Number.Binary64

/-! ### Digits as the text of a binary number -/

variable {c : CodePoint} {t : Text}

theorem mem_digits (h : c.isDigit = true) : c ∈ "0123456789".text := by
  obtain ⟨hl, hu⟩ := CodePoint.isDigit_iff_toNat.1 h
  have hall : ∀ n < 58, 48 ≤ n → CodePoint.ofNat n ∈ "0123456789".text := by decide
  rw [← CodePoint.ofNat_toNat c]
  exact hall _ (by omega) hl

/-- A digit stands for itself, and has no lower case. -/
theorem plain_of_isDigit (h : c.isDigit = true) :
    isPadding c = false ∧ plainDigit c = c ∧ c.toLower = c ∧ c ≠ '_' ∧ c ≠ '-' ∧ c ≠ '+' := by
  have hall : ∀ c ∈ "0123456789".text, isPadding c = false ∧ plainDigit c = c ∧ c.toLower = c ∧
      c ≠ '_' ∧ c ≠ '-' ∧ c ≠ '+' := by decide
  exact hall c (mem_digits h)

theorem joinDigits?_of_digits (h : ∀ c ∈ t, c.isDigit = true) : joinDigits? t = some t := by
  fun_induction joinDigits? t with
  | case1 => rfl
  | case2 r => exact absurd (h _ (.head _)) (by decide)
  | case3 a b r => exact absurd (h _ (.tail _ (.head _))) (by decide)
  | case4 a b r => exact absurd (h _ (.tail _ (.head _))) (by decide)
  | case5 a r _ _ ih =>
    rw [ih fun c hc => h c (.tail _ hc)]
    rfl

theorem ofPlainText?_of_digits (h : ∀ c ∈ t, c.isDigit = true) (hne : t ≠ []) :
    ofPlainText? t = some (ofDecimal false (ofDigits t) 0) := by
  have hlower : t.map CodePoint.toLower = t := by
    rw [List.map_congr_left fun c hc => (plain_of_isDigit (h c hc)).2.2.1, List.map_id']
  have hrun : digitRun t = (t, []) := by
    rw [← List.append_nil t, Json.digitRun_append h Json.endsNumber_nil, List.append_nil]
  have hname (name : Text) (hi : ∃ c ∈ name, c.isDigit = false) : t ≠ name := by
    rintro rfl
    obtain ⟨c, hc, hno⟩ := hi
    exact absurd (h c hc) (by simp [hno])
  have hsplit (r : Text) : t ≠ .char '-' :: r ∧ t ≠ .char '+' :: r := by
    constructor
    · rintro rfl
      exact absurd (h _ (.head _)) (by decide)
    · rintro rfl
      exact absurd (h _ (.head _)) (by decide)
  unfold ofPlainText?
  split
  next negative u hsign =>
  split at hsign
  · exact absurd rfl (hsplit _).1
  · exact absurd rfl (hsplit _).2
  · cases hsign
    simp [hlower, hname "inf".text (by decide), hname "infinity".text (by decide),
      hname "nan".text (by decide), hrun, exponentPart, hne]

/-- **Digits are read as the number nearest to theirs.** -/
theorem ofText?_of_digits (h : ∀ c ∈ t, c.isDigit = true) (hne : t ≠ []) :
    ofText? t = some (ofDecimal false (ofDigits t) 0) := by
  have hplain : t.map plainDigit = t := by
    rw [List.map_congr_left fun c hc => (plain_of_isDigit (h c hc)).2.1, List.map_id']
  -- no white space stands in front or behind
  have hdrop {u : Text} (hu : ∀ c ∈ u, c.isDigit = true) : u.dropWhile isPadding = u := by
    cases u with
    | nil => rfl
    | cons c r =>
      rw [List.dropWhile_cons_of_neg]
      simp [(plain_of_isDigit (hu c (.head _))).1]
  have htrailing : Text.dropTrailing isPadding t = t := by
    rw [Text.dropTrailing, hdrop fun c hc => h c (List.mem_reverse.1 hc), List.reverse_reverse]
  rw [ofText?, hdrop h, htrailing, hplain, joinDigits?_of_digits h]
  exact ofPlainText?_of_digits h hne

end Number.Binary64

end CodingPolicy
