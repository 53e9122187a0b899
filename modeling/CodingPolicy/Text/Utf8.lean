/-
CodingPolicy/Text/Utf8.lean

UTF-8: the bytes of a text, and the text of bytes or the reason why there is
none. The reading takes the bytes of a character as soon as they are known to
be well formed; otherwise it tells where the ill-formed bytes stand and what is
wrong with them.

A text with a surrogate is not written: the first surrogates in it are the fault
(`writeFault?`). In names of files the surrogates U+DC80 to U+DCFF stand for the
bytes 0x80 to 0xff that belong to no character (`nameBytes`, `nameFault?`).

Main results: bytes that were written are read back (`decode_encode`).
-/
import CodingPolicy.Number.Digits

namespace CodingPolicy.Utf8

/-! ### Writing -/

/-- The continuation byte with the six lowest bits of the number. -/
def continuation (n : Nat) : UInt8 :=
  UInt8.ofNat (0x80 + n % 0x40)

/-- The bytes of the character of a number. -/
def encodeNumber (n : Nat) : List UInt8 :=
  if n < 0x80 then [UInt8.ofNat n]
  else if n < 0x800 then [UInt8.ofNat (0xc0 + n / 0x40), continuation n]
  else if n < 0x10000 then
    [UInt8.ofNat (0xe0 + n / 0x1000), continuation (n / 0x40), continuation n]
  else
    [UInt8.ofNat (0xf0 + n / 0x40000), continuation (n / 0x1000), continuation (n / 0x40),
      continuation n]

/-- The bytes of one code point; a surrogate has those that its number would have. -/
def encodeChar (c : CodePoint) : List UInt8 :=
  encodeNumber c.toNat

/-- The bytes of a text. -/
def encode (t : Text) : List UInt8 :=
  t.flatMap encodeChar

/-- Surrogates in a text that is to be written: where they stand, how many they are in a
row, and the first of them. -/
structure WriteFault where
  /-- The number of code points before. -/
  start : Nat
  /-- The number of surrogates in the row. -/
  count : Nat
  /-- The first of them. -/
  first : CodePoint
  deriving DecidableEq, Repr

/-- The fault in words. -/
def WriteFault.message (f : WriteFault) : Text :=
  let place :=
    if f.count = 1 then
      "character '\\u".text ++ Number.hexText 4 f.first.toNat ++ "' in position ".text
        ++ Number.natText f.start
    else
      "characters in position ".text ++ Number.natText f.start ++ "-".text
        ++ Number.natText (f.start + f.count - 1)
  "'utf-8' codec can't encode ".text ++ place ++ ": surrogates not allowed".text

/-- The fault of the first code point that is not admitted, with the surrogates behind
it, where the text starts at the position. -/
def faultFrom (admitted : CodePoint → Bool) (position : Nat) : Text → Option WriteFault
  | [] => none
  | c :: r =>
    if admitted c then faultFrom admitted (position + 1) r
    else some ⟨position, 1 + (r.takeWhile CodePoint.isSurrogate).length, c⟩

/-- What is wrong with a text that is to be written, if anything. -/
def writeFault? (t : Text) : Option WriteFault :=
  faultFrom (fun c => !c.isSurrogate) 0 t

/-! ### Names of files -/

/-- The byte that a surrogate stands for in the name of a file. -/
def escapedByte? : CodePoint → Option UInt8
  | .char _ => none
  | .surrogate n => if 0x480 ≤ n.val ∧ n.val < 0x500 then some (.ofNat (n - 0x400)) else none

/-- A code point that may stand in the name of a file. -/
def isNameable (c : CodePoint) : Bool :=
  !c.isSurrogate || (escapedByte? c).isSome

/-- What is wrong with a text that is the name of a file, if anything. -/
def nameFault? (t : Text) : Option WriteFault :=
  faultFrom isNameable 0 t

/-- The bytes of the name of a file. -/
def nameBytes (t : Text) : List UInt8 :=
  t.flatMap fun c =>
    match escapedByte? c with
    | some b => [b]
    | none => encodeChar c

/-! ### Reading -/

/-- What is wrong with bytes that are no text. -/
inductive Reason where
  /-- No character starts with this byte. -/
  | badStart
  /-- The bytes of a character are broken off by a byte that does not go on with them. -/
  | badContinuation
  /-- The bytes end inside a character. -/
  | endsEarly
  deriving DecidableEq, Repr

/-- Ill-formed bytes: where they start, how many they are, the first of them,
and what is wrong. -/
structure Fault where
  /-- The number of bytes before. -/
  start : Nat
  /-- The number of ill-formed bytes. -/
  count : Nat
  /-- The first ill-formed byte. -/
  first : UInt8
  /-- What is wrong with them. -/
  reason : Reason
  deriving DecidableEq, Repr

/-- The reason in words. -/
def Reason.message : Reason → Text
  | .badStart => "invalid start byte".text
  | .badContinuation => "invalid continuation byte".text
  | .endsEarly => "unexpected end of data".text

/-- The fault in words. -/
def Fault.message (f : Fault) : Text :=
  let lead := "'utf-8' codec can't decode ".text
  let place :=
    if f.count = 1 then
      "byte 0x".text ++ Number.hexText 2 f.first.toNat ++ " in position ".text
        ++ Number.natText f.start
    else
      "bytes in position ".text ++ Number.natText f.start ++ "-".text
        ++ Number.natText (f.start + f.count - 1)
  lead ++ place ++ ": ".text ++ f.reason.message

/-- A byte that goes on with a character. -/
def isContinuation (b : UInt8) : Bool :=
  0x80 ≤ b.toNat && b.toNat < 0xc0

/-- The second byte may follow the first: no overlong form, no surrogate and
nothing above U+10FFFF starts so. -/
def secondFits (first second : UInt8) : Bool :=
  isContinuation second &&
    (match first.toNat with
      | 0xe0 => 0xa0 ≤ second.toNat
      | 0xed => second.toNat < 0xa0
      | 0xf0 => 0x90 ≤ second.toNat
      | 0xf4 => second.toNat < 0x90
      | _ => true)

/-- The payload of a continuation byte. -/
def payload (b : UInt8) : Nat :=
  b.toNat % 0x40

/-- The outcome of reading one character. -/
inductive Step where
  /-- A character and the bytes after it. -/
  | char (c : Char) (rest : List UInt8)
  /-- This many ill-formed bytes, and what is wrong with them. -/
  | fault (count : Nat) (reason : Reason)

/-- Reads one character whose first byte has been taken. -/
def step (a : UInt8) (r : List UInt8) : Step :=
  let n := a.toNat
  if n < 0x80 then .char (Char.ofNat n) r
  else if n < 0xc2 then .fault 1 .badStart
  else if n < 0xe0 then
    match r with
    | [] => .fault 1 .endsEarly
    | b :: r₁ =>
      if isContinuation b then .char (Char.ofNat (n % 0x20 * 0x40 + payload b)) r₁
      else .fault 1 .badContinuation
  else if n < 0xf0 then
    match r with
    | [] => .fault 1 .endsEarly
    | b :: r₁ =>
      if secondFits a b then
        match r₁ with
        | [] => .fault 2 .endsEarly
        | c :: r₂ =>
          if isContinuation c then
            .char (Char.ofNat (n % 0x10 * 0x1000 + payload b * 0x40 + payload c)) r₂
          else .fault 2 .badContinuation
      else .fault 1 .badContinuation
  else if n < 0xf5 then
    match r with
    | [] => .fault 1 .endsEarly
    | b :: r₁ =>
      if secondFits a b then
        match r₁ with
        | [] => .fault 2 .endsEarly
        | c :: r₂ =>
          if isContinuation c then
            match r₂ with
            | [] => .fault 3 .endsEarly
            | d :: r₃ =>
              if isContinuation d then
                .char
                  (Char.ofNat (n % 0x8 * 0x40000 + payload b * 0x1000 + payload c * 0x40 +
                    payload d))
                  r₃
              else .fault 3 .badContinuation
          else .fault 2 .badContinuation
      else .fault 1 .badContinuation
  else .fault 1 .badStart

/-- Each character takes a byte away. -/
theorem length_of_step {a : UInt8} {r rest : List UInt8} {c : Char}
    (h : step a r = .char c rest) : rest.length ≤ r.length := by
  unfold step at h
  grind

/-- Reads the bytes from the given position on. -/
def decodeFrom (position : Nat) : List UInt8 → Except Fault Text
  | [] => .ok []
  | a :: r =>
    match h : step a r with
    | .fault count reason => .error ⟨position, count, a, reason⟩
    | .char c rest =>
      have : rest.length < r.length + 1 := Nat.lt_succ_of_le (length_of_step h)
      match decodeFrom (position + (r.length + 1 - rest.length)) rest with
      | .error f => .error f
      | .ok t => .ok (.char c :: t)
termination_by bytes => bytes.length

/-- The text of the bytes, or the first fault in them. -/
def decode (bytes : List UInt8) : Except Fault Text :=
  decodeFrom 0 bytes

/-- The name of a file of these bytes; a byte that belongs to no character is escaped. -/
def nameOfBytes : List UInt8 → Text
  | [] => []
  | a :: r =>
    match h : step a r with
    | .fault _ _ => .ofNat (CodePoint.firstLow + a.toNat) :: nameOfBytes r
    | .char c rest =>
      have : rest.length < r.length + 1 := Nat.lt_succ_of_le (length_of_step h)
      .char c :: nameOfBytes rest
termination_by bytes => bytes.length

/-- The name under which a file is found. It is the text itself, unless bytes that it
escapes make up a character. -/
def nameOnDisk (t : Text) : Text :=
  if t.any CodePoint.isSurrogate then nameOfBytes (nameBytes t) else t

/-! ### Reading back -/

theorem toNat_continuation (n : Nat) : (continuation n).toNat = 0x80 + n % 0x40 := by
  simp only [continuation, UInt8.toNat_ofNat']
  omega

theorem isContinuation_continuation (n : Nat) : isContinuation (continuation n) = true := by
  simp only [isContinuation, toNat_continuation, Bool.and_eq_true, decide_eq_true_eq]
  omega

theorem payload_continuation (n : Nat) : payload (continuation n) = n % 0x40 := by
  simp only [payload, toNat_continuation]
  omega

/-- The bytes of a character are read as that character. -/
theorem step_encodeChar (c : Char) (rest : List UInt8) :
    ∃ a r, encodeChar (.char c) ++ rest = a :: r ∧ step a r = .char c rest := by
  have hc : c.toNat < 0x110000 ∧ (c.toNat < 0xd800 ∨ 0xdfff < c.toNat) := by
    have := c.valid
    simp only [UInt32.isValidChar, Nat.isValidChar] at this
    have e : c.toNat = c.val.toNat := rfl
    omega
  have hself : Char.ofNat c.toNat = c := Char.ofNat_toNat c
  rw [encodeChar, CodePoint.toNat_char, encodeNumber]
  split
  · next h =>
    refine ⟨_, rest, rfl, ?_⟩
    have e : (UInt8.ofNat c.toNat).toNat = c.toNat := by
      rw [UInt8.toNat_ofNat']; omega
    simp only [step, e, h, if_true, hself]
  · next h₁ =>
    split
    · next h₂ =>
      refine ⟨_, continuation c.toNat :: rest, rfl, ?_⟩
      have e : (UInt8.ofNat (0xc0 + c.toNat / 0x40)).toNat = 0xc0 + c.toNat / 0x40 := by
        rw [UInt8.toNat_ofNat']; omega
      have e' : (0xc0 + c.toNat / 0x40) % 0x20 * 0x40 + c.toNat % 0x40 = c.toNat := by omega
      simp only [step, e, isContinuation_continuation, payload_continuation, e', hself]
      rw [if_neg (by omega), if_neg (by omega), if_pos (by omega)]
      simp
    · next h₂ =>
      split
      · next h₃ =>
        refine ⟨_, continuation (c.toNat / 0x40) :: continuation c.toNat :: rest, rfl, ?_⟩
        have e : (UInt8.ofNat (0xe0 + c.toNat / 0x1000)).toNat = 0xe0 + c.toNat / 0x1000 := by
          rw [UInt8.toNat_ofNat']; omega
        have e' : (0xe0 + c.toNat / 0x1000) % 0x10 * 0x1000 + c.toNat / 0x40 % 0x40 * 0x40
            + c.toNat % 0x40 = c.toNat := by omega
        have hfits : secondFits (UInt8.ofNat (0xe0 + c.toNat / 0x1000))
            (continuation (c.toNat / 0x40)) = true := by
          simp only [secondFits, isContinuation_continuation, e, toNat_continuation, Bool.true_and]
          split <;> simp only [decide_eq_true_eq] <;> omega
        simp only [step, e, hfits, isContinuation_continuation, payload_continuation, e', hself]
        rw [if_neg (by omega), if_neg (by omega), if_neg (by omega), if_pos (by omega)]
        simp
      · next h₃ =>
        refine ⟨_, continuation (c.toNat / 0x1000) :: continuation (c.toNat / 0x40) ::
          continuation c.toNat :: rest, rfl, ?_⟩
        have e : (UInt8.ofNat (0xf0 + c.toNat / 0x40000)).toNat = 0xf0 + c.toNat / 0x40000 := by
          rw [UInt8.toNat_ofNat']; omega
        have e' : (0xf0 + c.toNat / 0x40000) % 0x8 * 0x40000 + c.toNat / 0x1000 % 0x40 * 0x1000
            + c.toNat / 0x40 % 0x40 * 0x40 + c.toNat % 0x40 = c.toNat := by omega
        have hfits : secondFits (UInt8.ofNat (0xf0 + c.toNat / 0x40000))
            (continuation (c.toNat / 0x1000)) = true := by
          simp only [secondFits, isContinuation_continuation, e, toNat_continuation, Bool.true_and]
          split <;> simp only [decide_eq_true_eq] <;> omega
        simp only [step, e, hfits, isContinuation_continuation, payload_continuation, e', hself]
        rw [if_neg (by omega), if_neg (by omega), if_neg (by omega), if_neg (by omega),
          if_pos (by omega)]
        simp

theorem faultFrom_eq_none_iff {admitted : CodePoint → Bool} {position : Nat} {t : Text} :
    faultFrom admitted position t = none ↔ ∀ c ∈ t, admitted c = true := by
  induction t generalizing position with
  | nil => simp [faultFrom]
  | cons c t ih =>
    rw [faultFrom]
    split
    · next hc => simp [ih, hc]
    · next hc => simp [hc]

/-- A text is written just where no surrogate stands in it. -/
theorem writeFault?_eq_none_iff {t : Text} :
    writeFault? t = none ↔ ∀ c ∈ t, c.isSurrogate = false := by
  simp [writeFault?, faultFrom_eq_none_iff]

/-- A text is the name of a file just where no other surrogate stands in it than those
that escape a byte. -/
theorem nameFault?_eq_none_iff {t : Text} :
    nameFault? t = none ↔ ∀ c ∈ t, isNameable c = true :=
  faultFrom_eq_none_iff

theorem writeFault?_append_eq_none {t u : Text} :
    writeFault? (t ++ u) = none ↔ writeFault? t = none ∧ writeFault? u = none := by
  simp only [writeFault?_eq_none_iff, List.forall_mem_append]

theorem writeFault?_flatMap_eq_none {α : Type} {xs : List α} {f : α → Text} :
    writeFault? (xs.flatMap f) = none ↔ ∀ x ∈ xs, writeFault? (f x) = none := by
  simp only [writeFault?_eq_none_iff, List.mem_flatMap]
  exact ⟨fun h x hx c hc => h c ⟨x, hx, hc⟩, fun h c ⟨x, hx, hc⟩ => h x hx c hc⟩

theorem decodeFrom_encode (position : Nat) {t : Text} (h : writeFault? t = none) :
    decodeFrom position (encode t) = .ok t := by
  rw [writeFault?_eq_none_iff] at h
  induction t generalizing position with
  | nil => simp [encode, decodeFrom]
  | cons c t ih =>
    rw [List.forall_mem_cons] at h
    cases c with
    | surrogate n => cases h.1
    | char c =>
      obtain ⟨a, r, he, hs⟩ := step_encodeChar c (encode t)
      have he' : encode (.char c :: t) = a :: r := by
        rw [← he]; simp [encode]
      rw [he', decodeFrom]
      split
      · next h => rw [hs] at h; simp at h
      · next h' =>
        rw [hs] at h'
        simp only [Step.char.injEq] at h'
        obtain ⟨rfl, rfl⟩ := h'
        simp [ih _ h.2]

/-- **Bytes that were written are read back.** -/
theorem decode_encode {t : Text} (h : writeFault? t = none) : decode (encode t) = .ok t :=
  decodeFrom_encode 0 h

/-- Texts that follow one another are written one after the other. -/
theorem encode_append (t u : Text) : encode (t ++ u) = encode t ++ encode u :=
  List.flatMap_append

end CodingPolicy.Utf8
