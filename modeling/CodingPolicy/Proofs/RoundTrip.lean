/-
CodingPolicy/Proofs/RoundTrip.lean

JSON text that was printed is read back.  The values are those without
floating-point numbers, which are all that a state or an event is made of, and the
layout may put white space between the parts.  A value is read with twice as many
nested calls as it has characters, and with anything behind it that a number
could not go on with (`Plain.readsBack`); the induction is on the value, and in a
list or an object on its items.

Main results: `Json.read_print`, and `Json.Plain.not_mem_printAt`, by which a
file keeps the text as it is.
-/
import CodingPolicy.Json.Printer
import CodingPolicy.Json.Reader
import CodingPolicy.Proofs.Numbers
import CodingPolicy.Proofs.Outcome

namespace CodingPolicy.Json

open Text (doubleQuote backslash joinWith_cons_of_ne_nil head?_joinWith mem_joinWith)

/-! ### Texts -/

/-- The value of four hexadecimal digits, if they are four. -/
def hexOf? : Text → Option Nat
  | [a, b, c, d] => hexCode? a b c d
  | _ => none

/-- A control character is written by its number. -/
theorem hexOf?_hexText : ∀ n < 0x20, hexOf? (Number.hexText 4 n) = some n := by
  decide

theorem exists_digits {t : Text} {n : Nat} (h : hexOf? t = some n) :
    ∃ a b c d, t = [a, b, c, d] ∧ hexCode? a b c d = some n := by
  unfold hexOf? at h
  split at h
  · exact ⟨_, _, _, _, rfl, h⟩
  · cases h

theorem readText_escape {e x : CodePoint} (he : escapedChar? e = some x) (hu : e ≠ 'u')
    (r : Text) : readText (backslash :: e :: r) = push x (readText r) := by
  rw [readText.eq_def]
  dsimp only
  rw [if_neg (by decide), if_pos rfl]
  split
  · next h => exact absurd (List.cons.inj h).1 hu
  · next h =>
    obtain ⟨rfl, rfl⟩ := List.cons.inj h
    rw [he]
  · next h => cases h

/-- A number that is no half of a pair stands for its code point, whatever follows. -/
theorem readText_number {a b c d : CodePoint} {n : Nat} (h : hexCode? a b c d = some n)
    (hn : n < CodePoint.firstHigh) (r : Text) :
    readText (backslash :: .char 'u' :: a :: b :: c :: d :: r) = push (.ofNat n) (readText r) := by
  have hjoined : ∀ m, joined? n m = none := fun m => if_neg fun hm => absurd hm.1 (by omega)
  have hpaired : pairedWith? n r = none := by
    unfold pairedWith?
    split
    · exact Option.bind_eq_none_iff.2 fun m _ => hjoined m
    · rfl
  rw [readText.eq_def]
  dsimp only
  rw [if_neg (by decide), if_pos rfl]
  simp only [h, pushEscape, hpaired]

/-- A code point between quotation marks is read. -/
theorem readText_escaped (c : CodePoint) (r : Text) :
    readText (escaped c ++ r) = push c (readText r) := by
  unfold escaped
  by_cases h₁ : c = doubleQuote ∨ c = backslash
  · rw [if_pos h₁]
    refine readText_escape ?_ ?_ r
    · rw [escapedChar?, if_pos (h₁.imp_right .inl)]
    · rintro rfl
      revert h₁
      decide
  rw [if_neg h₁]
  -- the five control characters with an escape of their own
  by_cases h₂ : c = '\n'
  · rw [if_pos h₂, h₂]
    exact readText_escape (by decide) (by decide) r
  rw [if_neg h₂]
  by_cases h₃ : c = '\r'
  · rw [if_pos h₃, h₃]
    exact readText_escape (by decide) (by decide) r
  rw [if_neg h₃]
  by_cases h₄ : c = '\t'
  · rw [if_pos h₄, h₄]
    exact readText_escape (by decide) (by decide) r
  rw [if_neg h₄]
  by_cases h₅ : c = '\x0c'
  · rw [if_pos h₅, h₅]
    exact readText_escape (by decide) (by decide) r
  rw [if_neg h₅]
  by_cases h₆ : c = '\x08'
  · rw [if_pos h₆, h₆]
    exact readText_escape (by decide) (by decide) r
  rw [if_neg h₆]
  by_cases h₇ : c.toNat < 0x20
  · rw [if_pos h₇]
    obtain ⟨d₁, d₂, d₃, d₄, hd, hn⟩ := exists_digits (hexOf?_hexText c.toNat h₇)
    rw [hd]
    have hread := readText_number hn (Nat.lt_trans h₇ (by decide)) r
    rwa [CodePoint.ofNat_toNat] at hread
  · rw [if_neg h₇]
    rw [not_or] at h₁
    rw [List.singleton_append, readText.eq_def]
    dsimp only
    rw [if_neg h₁.1, if_neg h₁.2, if_neg h₇]

/-- **A text between quotation marks is read back.** -/
theorem readText_quoted (t r : Text) :
    readText (t.flatMap escaped ++ doubleQuote :: r) = .ok (t, r) := by
  induction t with
  | nil =>
    show readText (doubleQuote :: r) = _
    rw [readText.eq_def]
    exact if_pos rfl
  | cons c t ih =>
    rw [List.flatMap_cons, List.append_assoc, readText_escaped, ih]
    rfl

theorem quoted_append (t r : Text) :
    quoted t ++ r = doubleQuote :: (t.flatMap escaped ++ doubleQuote :: r) := by
  simp [quoted]

/-! ### Layouts -/

/-- Between the parts of a value stands white space, and the colon where it must. -/
structure Layout.Blank (l : Layout) : Prop where
  /-- A line break is white space. -/
  lineBreak : ∀ depth, ∀ c ∈ l.lineBreak depth, isBlank c = true
  /-- White space may follow a colon. -/
  colon : ∃ b, l.colon = .char ':' :: b ∧ ∀ c ∈ b, isBlank c = true

theorem Layout.blank_compact : Layout.compact.Blank :=
  ⟨fun _ _ => nofun, ⟨[], rfl, nofun⟩⟩

theorem Layout.blank_indented : Layout.indented.Blank := by
  refine ⟨fun depth c hc => ?_, ⟨[.char ' '], rfl, List.all_eq_true.1 rfl⟩⟩
  rcases List.mem_cons.1 hc with rfl | hc
  · rfl
  · rw [List.eq_of_mem_replicate hc]
    rfl

/-- White space is skipped up to what is none. -/
theorem skipBlank_append {b t : Text} (hb : ∀ c ∈ b, isBlank c = true)
    (ht : ∀ c, t.head? = some c → isBlank c = false) : skipBlank (b ++ t) = t := by
  rw [skipBlank, List.dropWhile_append_of_pos hb]
  cases t with
  | nil => rfl
  | cons c t => exact List.dropWhile_cons_of_neg (by simp [ht c rfl])

/-! ### Values -/

/-- A value without floating-point numbers and without whole numbers that the reader
refuses, in whose objects no name occurs twice. -/
inductive Plain : Json → Prop where
  /-- The null value. -/
  | null : Plain null
  /-- A truth value. -/
  | bool (b : Bool) : Plain (bool b)
  /-- A whole number that does not have too many digits. -/
  | int {i : Int} (h : (Number.natText i.natAbs).length ≤ digitLimit) : Plain (int i)
  /-- A text. -/
  | string (t : Text) : Plain (string t)
  /-- A list of such values. -/
  | array {items : List Json} (h : ∀ v ∈ items, Plain v) : Plain (array items)
  /-- Such values under distinct names. -/
  | object {members : List (Text × Json)} (h : ∀ e ∈ members, Plain e.2)
      (hd : (members.map Prod.fst).Nodup) : Plain (object members)

/-- With enough nested calls the value is read from its text, whatever follows that a
number does not go on with. -/
def ReadsBack (l : Layout) (v : Json) : Prop :=
  ∀ depth bound rest, EndsNumber rest → 2 * (printAt l depth v).length ≤ bound →
    readValue bound (printAt l depth v ++ rest) = .ok (v, rest)

variable {l : Layout} {v : Json}

/-- A text starts with what is no white space and closes nothing. -/
theorem Plain.head (h : Plain v) (l : Layout) (depth : Nat) :
    ∃ c r, printAt l depth v = c :: r ∧ isBlank c = false ∧ c ≠ ']' := by
  cases h with
  | null => exact ⟨'n', _, rfl, rfl, by decide⟩
  | bool b =>
    cases b with
    | false => exact ⟨'f', _, rfl, rfl, by decide⟩
    | true => exact ⟨'t', _, rfl, rfl, by decide⟩
  | @int i =>
    rw [printAt]
    obtain ⟨c, r, hn, hc, -⟩ := Number.natText_eq_cons i.natAbs
    unfold Number.intText
    split
    · exact ⟨'-', _, rfl, rfl, by decide⟩
    · refine ⟨c, r, hn, ?_, ne_of_isDigit hc rfl⟩
      have hne : ∀ {x : CodePoint}, x.isDigit = false → (c == x) = false := fun hx =>
        beq_eq_false_iff_ne.2 (ne_of_isDigit hc hx)
      rw [isBlank, hne rfl, hne rfl, hne rfl, hne rfl]
      rfl
  | string t => exact ⟨doubleQuote, _, rfl, rfl, by decide⟩
  | @array items h =>
    rw [printAt]
    cases printItems l (depth + 1) items with
    | nil => exact ⟨'[', _, rfl, rfl, by decide⟩
    | cons x xs => exact ⟨'[', _, rfl, rfl, by decide⟩
  | @object members h hd =>
    rw [printAt]
    cases printMembers l (depth + 1) members with
    | nil => exact ⟨'{', _, rfl, rfl, by decide⟩
    | cons x xs => exact ⟨'{', _, rfl, rfl, by decide⟩

theorem readsBack_null : ReadsBack l null := by
  intro depth bound rest _ hb
  rw [printAt] at hb ⊢
  obtain ⟨bound, rfl⟩ := Nat.exists_eq_add_one.2 (Nat.lt_of_lt_of_le (by decide) hb)
  rfl

theorem readsBack_bool (b : Bool) : ReadsBack l (bool b) := by
  intro depth bound rest _ hb
  cases b with
  | false =>
    rw [printAt] at hb ⊢
    obtain ⟨bound, rfl⟩ := Nat.exists_eq_add_one.2 (Nat.lt_of_lt_of_le (by decide) hb)
    rfl
  | true =>
    rw [printAt] at hb ⊢
    obtain ⟨bound, rfl⟩ := Nat.exists_eq_add_one.2 (Nat.lt_of_lt_of_le (by decide) hb)
    rfl

theorem readsBack_int {i : Int} (hl : (Number.natText i.natAbs).length ≤ digitLimit) :
    ReadsBack l (int i) := by
  intro depth bound rest hr hb
  rw [printAt] at hb ⊢
  have hread := readNumber_intText hl hr
  obtain ⟨c, r, hn, hc, -⟩ := Number.natText_eq_cons i.natAbs
  have hne : ∀ {x : CodePoint}, x.isDigit = false → c ≠ x := ne_of_isDigit hc
  unfold Number.intText at hb hread ⊢
  rw [hn] at hb hread ⊢
  -- a sign or a digit starts neither a text nor a list, an object or a word
  split at hb
  · next hi =>
    rw [if_pos hi] at hread ⊢
    obtain ⟨bound, rfl⟩ := Nat.exists_eq_add_one.2 (show 0 < bound by simp at hb; omega)
    rw [List.cons_append, List.cons_append, readValue, if_neg (by decide), if_neg (by decide),
      if_neg (by decide), readWord?_of_minus hc]
    exact hread
  · next hi =>
    rw [if_neg hi] at hread ⊢
    obtain ⟨bound, rfl⟩ := Nat.exists_eq_add_one.2 (show 0 < bound by simp at hb; omega)
    rw [List.cons_append, readValue, if_neg (hne rfl), if_neg (hne rfl), if_neg (hne rfl),
      readWord?_of_digit hc]
    exact hread

theorem readsBack_string (t : Text) : ReadsBack l (string t) := by
  intro depth bound rest _ hb
  rw [printAt] at hb ⊢
  obtain ⟨bound, rfl⟩ := Nat.exists_eq_add_one.2 (show 0 < bound by simp [quoted] at hb; omega)
  rw [quoted_append, readValue, if_pos rfl, readText_quoted]
  rfl

theorem skipBlank_of_head {t : Text} (ht : ∀ c, t.head? = some c → isBlank c = false) :
    skipBlank t = t :=
  skipBlank_append (b := []) (fun _ h => nomatch h) ht

/-- **The items of a list are read back**, up to the bracket behind them. -/
theorem readItems_printItems (hl : l.Blank) {items : List Json} (hp : ∀ v ∈ items, Plain v)
    (hr : ∀ v ∈ items, ReadsBack l v) (hne : items ≠ []) (depth : Nat) {close : Text}
    (hc : ∀ c ∈ close, isBlank c = true) (bound : Nat) (rest : Text)
    (hb : 2 * (Text.joinWith (.char ',' :: l.lineBreak depth)
      (printItems l depth items)).length + 1 ≤ bound) :
    readItems bound (Text.joinWith (.char ',' :: l.lineBreak depth) (printItems l depth items) ++
      (close ++ .char ']' :: rest)) = .ok (items, rest) := by
  induction items generalizing bound with
  | nil => exact absurd rfl hne
  | cons v items ih =>
    obtain ⟨bound, rfl⟩ := Nat.exists_eq_add_one.2 (show 0 < bound by omega)
    have hv := hr v (.head _)
    cases items with
    | nil =>
      simp only [printItems, Text.joinWith] at hb ⊢
      rw [readItems, hv depth bound _ (endsNumber_append hc (endsNumber_cons (by decide) _))
        (by omega), ok_bind]
      dsimp only
      rw [skipBlank_append hc (by simp; rfl)]
      rfl
    | cons w items =>
      have hw := ih (fun u hu => hp u (.tail _ hu)) (fun u hu => hr u (.tail _ hu)) (by simp)
      have hne : printItems l depth (w :: items) ≠ [] := List.cons_ne_nil _ _
      obtain ⟨c, r, hhead, hblank, -⟩ := (hp w (.tail _ (.head _))).head l depth
      rw [printItems, joinWith_cons_of_ne_nil _ _ hne] at hb ⊢
      simp only [List.append_assoc, List.cons_append, List.length_append, List.length_cons] at hb ⊢
      rw [readItems, hv depth bound _ (endsNumber_cons (by decide) _) (by omega), ok_bind]
      dsimp only
      -- the comma is no white space, and the next item starts behind the white space
      rw [skipBlank_of_head (by simp; rfl)]
      show (readItems bound (skipBlank _) >>= fun p => pure (v :: p.1, p.2)) = _
      rw [skipBlank_append (hl.lineBreak depth), hw bound (by omega)]
      · rfl
      · intro x hx
        rw [printItems, head?_joinWith _ (by simp [hhead]), hhead] at hx
        cases hx
        exact hblank

/-- What is read behind the value of a member. -/
def afterMember (bound : Nat) (k : Text) (v : Json) (t : Text) :
    Except Fault (List (Text × Json) × Text) :=
  match skipBlank t with
  | .char '}' :: r => return ([(k, v)], r)
  | .char ',' :: r => do
    let (ms, r) ← readMembers bound (skipBlank r)
    return ((k, v) :: ms, r)
  | _ => .error .malformed

/-- A member is read back up to what is behind its value. -/
theorem readMembers_printed (hl : l.Blank) {k behind : Text} (hp : Plain v) (hr : ReadsBack l v)
    (hends : EndsNumber behind) {depth bound : Nat}
    (hb : 2 * (printAt l depth v).length ≤ bound) :
    readMembers (bound + 1) (quoted k ++ (l.colon ++ (printAt l depth v ++ behind))) =
      afterMember bound k v behind := by
  obtain ⟨b, hcolon, hblank⟩ := hl.colon
  obtain ⟨c, r, hhead, hc, -⟩ := hp.head l depth
  have hskip : skipBlank (b ++ (printAt l depth v ++ behind)) = printAt l depth v ++ behind := by
    refine skipBlank_append hblank fun x hx => ?_
    rw [hhead] at hx
    cases hx
    exact hc
  rw [hcolon, List.cons_append, quoted_append, readMembers, if_pos rfl, readText_quoted, ok_bind]
  dsimp only
  rw [skipBlank_of_head (by simp; rfl)]
  show (readValue bound (skipBlank _) >>= fun p => afterMember bound k p.1 p.2) = _
  rw [hskip, hr depth bound _ hends hb, ok_bind]

/-- **The members of an object are read back**, up to the brace behind them. -/
theorem readMembers_printMembers (hl : l.Blank) {members : List (Text × Json)}
    (hp : ∀ e ∈ members, Plain e.2) (hr : ∀ e ∈ members, ReadsBack l e.2) (hne : members ≠ [])
    (depth : Nat) {close : Text} (hc : ∀ c ∈ close, isBlank c = true) (bound : Nat) (rest : Text)
    (hb : 2 * (Text.joinWith (.char ',' :: l.lineBreak depth)
      (printMembers l depth members)).length + 1 ≤ bound) :
    readMembers bound
      (Text.joinWith (.char ',' :: l.lineBreak depth) (printMembers l depth members) ++
      (close ++ .char '}' :: rest)) = .ok (members, rest) := by
  induction members generalizing bound with
  | nil => exact absurd rfl hne
  | cons e members ih =>
    obtain ⟨bound, rfl⟩ := Nat.exists_eq_add_one.2 (show 0 < bound by omega)
    have hv := hp e (.head _)
    have he := hr e (.head _)
    cases members with
    | nil =>
      simp only [printMembers, Text.joinWith, List.append_assoc, List.length_append] at hb ⊢
      rw [readMembers_printed hl hv he (endsNumber_append hc (endsNumber_cons (by decide) _))
        (by omega), afterMember]
      rw [skipBlank_append hc (by simp; rfl)]
      rfl
    | cons e' members =>
      have hw := ih (fun u hu => hp u (.tail _ hu)) (fun u hu => hr u (.tail _ hu)) (by simp)
      have hne : printMembers l depth (e' :: members) ≠ [] := List.cons_ne_nil _ _
      rw [printMembers, joinWith_cons_of_ne_nil _ _ hne] at hb ⊢
      simp only [List.append_assoc, List.cons_append, List.length_append, List.length_cons] at hb ⊢
      rw [readMembers_printed hl hv he (endsNumber_cons (by decide) _) (by omega), afterMember]
      rw [skipBlank_of_head (by simp; rfl)]
      show (readMembers bound (skipBlank _) >>= fun p => pure (e :: p.1, p.2)) = _
      rw [skipBlank_append (hl.lineBreak depth), hw bound (by omega)]
      · rfl
      · intro x hx
        rw [printMembers, head?_joinWith _ (by simp [quoted])] at hx
        cases hx
        rfl

/-- An object starts with the quotation mark of its first name. -/
theorem head?_printMembers (l : Layout) (depth : Nat) (e : Text × Json)
    (members : List (Text × Json)) (glue rest : Text) :
    (Text.joinWith glue (printMembers l depth (e :: members)) ++ rest).head? =
      some doubleQuote := by
  rw [printMembers, head?_joinWith _ (by simp [quoted])]
  rfl

theorem bracketed_of_ne_nil (l : Layout) (depth : Nat) (opening closing : CodePoint)
    {items : List Text} (h : items ≠ []) :
    bracketed l depth opening closing items =
      opening :: (l.lineBreak (depth + 1) ++
        (Text.joinWith (.char ',' :: l.lineBreak (depth + 1)) items ++
          (l.lineBreak depth ++ [closing]))) := by
  cases items with
  | nil => exact absurd rfl h
  | cons x xs => simp [bracketed]

/-- A list is read back if its items are. -/
theorem readsBack_array (hl : l.Blank) {items : List Json} (hp : ∀ v ∈ items, Plain v)
    (hr : ∀ v ∈ items, ReadsBack l v) : ReadsBack l (array items) := by
  intro depth bound rest _ hb
  rw [printAt] at hb ⊢
  cases items with
  | nil =>
    simp only [printItems, bracketed, List.length_cons] at hb
    obtain ⟨bound, rfl⟩ := Nat.exists_eq_add_one.2 (show 0 < bound by omega)
    rfl
  | cons v items =>
    obtain ⟨c, r, hhead, hblank, hclose⟩ := (hp v (.head _)).head l (depth + 1)
    have hitems := readItems_printItems hl hp hr (by simp) (depth + 1) (hl.lineBreak depth)
    have hstart := head?_joinWith (.char ',' :: l.lineBreak (depth + 1))
      (show printAt l (depth + 1) v ≠ [] by simp [hhead]) (printItems l (depth + 1) items)
      (l.lineBreak depth ++ .char ']' :: rest)
    rw [hhead, List.head?_cons, ← hhead, ← printItems] at hstart
    rw [bracketed_of_ne_nil l depth '[' ']' (by simp [printItems])] at hb ⊢
    simp only [List.append_assoc, List.cons_append, List.nil_append, List.length_append,
      List.length_cons] at hb ⊢
    obtain ⟨bound, rfl⟩ := Nat.exists_eq_add_one.2 (show 0 < bound by omega)
    rw [readValue, if_neg (by decide), if_pos rfl, skipBlank_append (hl.lineBreak (depth + 1))]
    · split
      · next s hs =>
        -- the first item does not start like the closing bracket
        rw [hs] at hstart
        exact absurd (Option.some.inj hstart).symm hclose
      · rw [hitems bound rest (by omega)]
        rfl
    · intro x hx
      cases hstart.symm.trans hx
      exact hblank

/-- An object is read back if its values are and no name occurs twice. -/
theorem readsBack_object (hl : l.Blank) {members : List (Text × Json)}
    (hp : ∀ e ∈ members, Plain e.2) (hd : (members.map Prod.fst).Nodup)
    (hr : ∀ e ∈ members, ReadsBack l e.2) : ReadsBack l (object members) := by
  intro depth bound rest _ hb
  rw [printAt] at hb ⊢
  cases members with
  | nil =>
    simp only [printMembers, bracketed, List.length_cons] at hb
    obtain ⟨bound, rfl⟩ := Nat.exists_eq_add_one.2 (show 0 < bound by omega)
    rfl
  | cons e members =>
    have hmembers := readMembers_printMembers hl hp hr (by simp) (depth + 1) (hl.lineBreak depth)
    have hstart := head?_printMembers l (depth + 1) e members (.char ',' :: l.lineBreak (depth + 1))
      (l.lineBreak depth ++ .char '\x7d' :: rest)
    rw [bracketed_of_ne_nil l depth '\x7b' '\x7d' (by simp [printMembers])] at hb ⊢
    simp only [List.append_assoc, List.cons_append, List.nil_append, List.length_append,
      List.length_cons] at hb ⊢
    obtain ⟨bound, rfl⟩ := Nat.exists_eq_add_one.2 (show 0 < bound by omega)
    rw [readValue, if_neg (by decide), if_neg (by decide), if_pos rfl,
      skipBlank_append (hl.lineBreak (depth + 1))]
    · split
      · next s hs =>
        rw [hs] at hstart
        exact absurd (Option.some.inj hstart) (by decide)
      · -- the names are distinct, so all members are kept in their order
        rw [hmembers bound rest (by omega), ok_bind]
        dsimp only
        rw [Entries.merge_append (by simpa using hd)]
        rfl
    · intro x hx
      cases hstart.symm.trans hx
      rfl

/-- **A plain value is read back.** -/
theorem Plain.readsBack (hl : l.Blank) (h : Plain v) : ReadsBack l v := by
  induction h with
  | null => exact readsBack_null
  | bool b => exact readsBack_bool b
  | int hl => exact readsBack_int hl
  | string t => exact readsBack_string t
  | array hp ih => exact readsBack_array hl hp ih
  | object hp hd ih => exact readsBack_object hl hp hd ih

/-- **A printed value is read.** -/
theorem read_print (hl : l.Blank) (h : Plain v) {behind : Text}
    (hb : ∀ c ∈ behind, isBlank c = true) : read (print l v ++ behind) = .ok v := by
  obtain ⟨c, r, hhead, hblank, -⟩ := h.head l 0
  have hstart : ∀ x, (print l v ++ behind).head? = some x → isBlank x = false := by
    intro x hx
    rw [print, hhead] at hx
    cases hx
    exact hblank
  have hend : skipBlank behind = [] := by
    have := skipBlank_append (t := []) hb (fun c hc => nomatch hc)
    rwa [List.append_nil] at this
  have hends : EndsNumber behind := by
    rw [← List.append_nil behind]
    exact endsNumber_append hb endsNumber_nil
  -- the reader allows for twice as many calls as there are characters
  rw [read, skipBlank_of_head hstart, print, h.readsBack hl 0 _ behind hends, ok_bind]
  · dsimp only
    rw [if_pos hend]
    rfl
  · rw [List.length_append]
    omega

/-! ### Control characters -/

theorem le_of_all {t : Text} (ht : t.all (fun x => 0x20 ≤ x.toNat) = true) {x : CodePoint}
    (h : x ∈ t) : 0x20 ≤ x.toNat :=
  of_decide_eq_true (List.all_eq_true.1 ht x h)

theorem all_hexText : ∀ n < 0x20, (Number.hexText 4 n).all (fun x => 0x20 ≤ x.toNat) = true := by
  decide

/-- No control character stands between quotation marks. -/
theorem le_of_mem_escaped {c x : CodePoint} (h : x ∈ escaped c) : 0x20 ≤ x.toNat := by
  unfold escaped at h
  split at h
  · next hc => rcases hc with rfl | rfl <;> exact le_of_all (by decide) h
  split at h
  · exact le_of_all (by decide) h
  split at h
  · exact le_of_all (by decide) h
  split at h
  · exact le_of_all (by decide) h
  split at h
  · exact le_of_all (by decide) h
  split at h
  · exact le_of_all (by decide) h
  split at h
  · next hn =>
    rcases List.mem_cons.1 h with rfl | h
    · decide
    · rcases List.mem_cons.1 h with rfl | h
      · decide
      · exact le_of_all (all_hexText _ hn) h
  · next hn =>
    rw [List.mem_singleton.1 h]
    omega

theorem le_of_mem_quoted {t : Text} {x : CodePoint} (h : x ∈ quoted t) : 0x20 ≤ x.toNat := by
  rw [quoted, List.cons_append, List.mem_cons, List.mem_append, List.mem_singleton] at h
  rcases h with rfl | h | rfl
  · decide
  · obtain ⟨c, -, hc⟩ := List.mem_flatMap.1 h
    exact le_of_mem_escaped hc
  · decide

theorem le_of_mem_natText {n : Nat} {x : CodePoint} (h : x ∈ Number.natText n) :
    0x20 ≤ x.toNat := by
  have hle := (CodePoint.isDigit_iff_toNat.1 (Number.isDigit_of_mem_natText h)).1
  exact Nat.le_trans (by decide) hle

theorem le_of_mem_intText {i : Int} {x : CodePoint} (h : x ∈ Number.intText i) :
    0x20 ≤ x.toNat := by
  unfold Number.intText at h
  split at h
  · rcases List.mem_cons.1 h with rfl | h
    · decide
    · exact le_of_mem_natText h
  · exact le_of_mem_natText h

theorem mem_bracketed {depth : Nat} {opening closing x : CodePoint} {texts : List Text}
    (h : x ∈ bracketed l depth opening closing texts) :
    x ∈ [opening, closing, ','] ∨ (∃ depth, x ∈ l.lineBreak depth) ∨ ∃ t ∈ texts, x ∈ t := by
  cases texts with
  | nil =>
    left
    rcases List.mem_cons.1 h with rfl | h
    · exact .head _
    · exact .tail _ (List.mem_cons.2 (.inl (List.mem_singleton.1 h)))
  | cons t texts =>
    rw [bracketed_of_ne_nil _ _ _ _ (List.cons_ne_nil t texts)] at h
    simp only [List.mem_cons, List.mem_append, List.not_mem_nil, or_false] at h
    rcases h with rfl | h | h | h | rfl
    · exact .inl (.head _)
    · exact .inr (.inl ⟨_, h⟩)
    · rcases mem_joinWith h with h | h
      · rcases List.mem_cons.1 h with rfl | h
        · exact .inl (by simp)
        · exact .inr (.inl ⟨_, h⟩)
      · exact .inr (.inr h)
    · exact .inr (.inl ⟨_, h⟩)
    · exact .inl (by simp)

theorem printItems_eq (l : Layout) (depth : Nat) (items : List Json) :
    printItems l depth items = items.map (printAt l depth) := by
  induction items with
  | nil => rfl
  | cons v items ih => rw [printItems, ih, List.map_cons]

theorem printMembers_eq (l : Layout) (depth : Nat) (members : List (Text × Json)) :
    printMembers l depth members =
      members.map fun e => quoted e.1 ++ l.colon ++ printAt l depth e.2 := by
  induction members with
  | nil => rfl
  | cons e members ih => rw [printMembers, ih, List.map_cons]

/-- **No control character is printed** that the layout does not bring along. -/
theorem Plain.not_mem_printAt (h : Plain v) {x : CodePoint} (hx : x.toNat < 0x20)
    (hbreak : ∀ depth, x ∉ l.lineBreak depth) (hcolon : x ∉ l.colon) (depth : Nat) :
    x ∉ printAt l depth v := by
  have visible : ∀ {t : Text}, (∀ y ∈ t, 0x20 ≤ y.toNat) → x ∉ t := by
    intro t ht hm
    exact absurd (ht x hm) (by omega)
  have literal : ∀ {t : Text}, t.all (fun y => 0x20 ≤ y.toNat) = true → x ∉ t := by
    intro t ht
    exact visible fun y => le_of_all ht
  induction h generalizing depth with
  | null =>
    rw [printAt]
    exact literal (by decide)
  | bool b =>
    cases b with
    | false =>
      rw [printAt]
      exact literal (by decide)
    | true =>
      rw [printAt]
      exact literal (by decide)
  | @int i =>
    rw [printAt]
    exact visible fun y => le_of_mem_intText
  | string t => exact visible fun y => le_of_mem_quoted
  | @array items hp ih =>
    intro hm
    rw [printAt, printItems_eq] at hm
    rcases mem_bracketed hm with hm | ⟨d, hm⟩ | ⟨t, ht, hm⟩
    · exact literal (by decide) hm
    · exact hbreak d hm
    · obtain ⟨v, hv, rfl⟩ := List.mem_map.1 ht
      exact ih v hv (depth + 1) hm
  | @object members hp hd ih =>
    intro hm
    rw [printAt, printMembers_eq] at hm
    rcases mem_bracketed hm with hm | ⟨d, hm⟩ | ⟨t, ht, hm⟩
    · exact literal (by decide) hm
    · exact hbreak d hm
    · obtain ⟨e, he, rfl⟩ := List.mem_map.1 ht
      rcases List.mem_append.1 hm with hm | hm
      · rcases List.mem_append.1 hm with hm | hm
        · exact visible (fun y => le_of_mem_quoted) hm
        · exact hcolon hm
      · exact ih e he (depth + 1) hm

end CodingPolicy.Json
