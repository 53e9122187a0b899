/-
CodingPolicy/Text/Basic.lean

Text as the list of its code points, with the few ways of cutting it up that
the rest of the library needs: at every separator, at the first mark, after
the last separator, and at the ends.

Main results: joining what was split gives the text back (`joinWith_splitOn`),
no piece of a split holds the separator (`not_mem_of_mem_splitOn`), and a cut
at a mark loses nothing (`eq_of_cutAt`).
-/
import CodingPolicy.Text.CodePoint

namespace CodingPolicy

/-- Text is the list of its code points; every rule on text in this library is
a rule on code points. -/
abbrev Text := List CodePoint

namespace Text

/-- The text of characters. -/
def ofChars (chars : List Char) : Text :=
  chars.map .char

end Text

end CodingPolicy

/-- The characters of a string as a text. -/
def String.text (s : String) : CodingPolicy.Text :=
  CodingPolicy.Text.ofChars s.toList

/-- Different strings have different texts. -/
@[simp] theorem String.text_inj {s t : String} : s.text = t.text ↔ s = t := by
  rw [String.text, String.text, CodingPolicy.Text.ofChars, CodingPolicy.Text.ofChars,
    List.map_inj_right fun a b h => CodingPolicy.CodePoint.char.inj h, String.toList_inj]

@[simp] theorem String.text_eq_nil {s : String} : s.text = [] ↔ s = "" :=
  String.text_inj (t := "")

namespace CodingPolicy

namespace Text

/-- Texts that compare as equal are equal. -/
instance lawfulBEq : LawfulBEq Text := inferInstance

/-! ### Splitting and joining -/

/-- The pieces of a text between the separators, empty pieces included; there
is always at least one. -/
def splitOn (sep : CodePoint) : Text → List Text
  | [] => [[]]
  | c :: r =>
    if c = sep then [] :: splitOn sep r
    else match splitOn sep r with
      | [] => [[c]]
      | s :: ss => (c :: s) :: ss

/-- The texts one after the other, with `glue` between neighbours. -/
def joinWith (glue : Text) : List Text → Text
  | [] => []
  | [s] => s
  | s :: t :: r => s ++ glue ++ joinWith glue (t :: r)

theorem splitOn_ne_nil (sep : CodePoint) (t : Text) : splitOn sep t ≠ [] := by
  cases t with
  | nil => simp [splitOn]
  | cons c r =>
    simp only [splitOn]
    split
    · simp
    · split <;> simp

/-- **Joining what was split gives the text back.** -/
theorem joinWith_splitOn (sep : CodePoint) (t : Text) :
    joinWith [sep] (splitOn sep t) = t := by
  induction t with
  | nil => rfl
  | cons c r ih =>
    rcases e : splitOn sep r with - | ⟨s, ss⟩
    · exact absurd e (splitOn_ne_nil sep r)
    · rw [e] at ih
      by_cases h : c = sep
      · simp [splitOn, h, e, joinWith, ih]
      · cases ss <;> simp_all [splitOn, joinWith]

/-- No piece of a split holds the separator. -/
theorem not_mem_of_mem_splitOn {sep : CodePoint} {t s : Text} (h : s ∈ splitOn sep t) :
    sep ∉ s := by
  induction t generalizing s with
  | nil => simp_all [splitOn]
  | cons c r ih =>
    rcases e : splitOn sep r with - | ⟨u, us⟩
    · exact absurd e (splitOn_ne_nil sep r)
    · by_cases hc : c = sep
      · simp only [splitOn, hc, if_true, List.mem_cons] at h
        rcases h with rfl | h
        · simp
        · exact ih h
      · simp only [splitOn, hc, if_false, e, List.mem_cons] at h
        rcases h with rfl | h
        · have := ih (s := u) (by simp [e])
          simp [this, Ne.symm hc]
        · exact ih (by simp [e, h])

theorem joinWith_cons_of_ne_nil (glue s : Text) {l : List Text} (h : l ≠ []) :
    joinWith glue (s :: l) = s ++ glue ++ joinWith glue l := by
  cases l with
  | nil => exact absurd rfl h
  | cons t l => rfl

theorem joinWith_concat (glue : Text) (l : List Text) (x : Text) :
    joinWith glue (l ++ [x]) = if l = [] then x else joinWith glue l ++ glue ++ x := by
  induction l with
  | nil => rfl
  | cons s l ih =>
    rw [if_neg (List.cons_ne_nil s l), List.cons_append,
      joinWith_cons_of_ne_nil _ _
        (List.append_ne_nil_of_right_ne_nil l (List.cons_ne_nil x [])), ih]
    by_cases h : l = []
    · rw [if_pos h, h]
      rfl
    · rw [if_neg h, joinWith_cons_of_ne_nil _ _ h]
      simp only [List.append_assoc]

/-- Joined texts start like the first of them. -/
theorem head?_joinWith (glue : Text) {s : Text} (hs : s ≠ []) (l : List Text) (rest : Text) :
    (joinWith glue (s :: l) ++ rest).head? = s.head? := by
  obtain ⟨c, s, rfl⟩ := List.exists_cons_of_ne_nil hs
  cases l <;> rfl

/-- What stands in joined texts stands in the glue or in one of them. -/
theorem mem_joinWith {glue : Text} {texts : List Text} {x : CodePoint}
    (h : x ∈ joinWith glue texts) : x ∈ glue ∨ ∃ t ∈ texts, x ∈ t := by
  induction texts with
  | nil => cases h
  | cons t texts ih =>
    cases texts with
    | nil => exact .inr ⟨t, .head _, h⟩
    | cons u texts =>
      rw [joinWith, List.mem_append, List.mem_append] at h
      rcases h with (h | h) | h
      · exact .inr ⟨t, .head _, h⟩
      · exact .inl h
      · rcases ih h with h | ⟨s, hs, hx⟩
        · exact .inl h
        · exact .inr ⟨s, .tail _ hs, hx⟩

theorem mem_joinWith_of_mem {glue : Text} {texts : List Text} {t : Text} {x : CodePoint}
    (ht : t ∈ texts) (hx : x ∈ t) : x ∈ joinWith glue texts := by
  induction texts with
  | nil => cases ht
  | cons s texts ih =>
    cases texts with
    | nil => rwa [List.mem_singleton.1 ht] at hx
    | cons u texts =>
      rw [joinWith, List.mem_append, List.mem_append]
      rcases List.mem_cons.1 ht with rfl | ht
      · exact .inl (.inl hx)
      · exact .inr (ih ht)

/-! ### Cutting once -/

/-- The text before and the text after the first occurrence of `mark`. -/
def cutAt (mark : Text) : Text → Option (Text × Text)
  | [] => if mark = [] then some ([], []) else none
  | c :: r =>
    if mark.isPrefixOf (c :: r) then some ([], (c :: r).drop mark.length)
    else (cutAt mark r).map fun p => (c :: p.1, p.2)

/-- A cut loses nothing but the mark. -/
theorem eq_of_cutAt {mark t a b : Text} (h : cutAt mark t = some (a, b)) :
    t = a ++ mark ++ b := by
  induction t generalizing a with
  | nil =>
    simp only [cutAt] at h
    split at h <;> simp_all
  | cons c r ih =>
    simp only [cutAt] at h
    split at h
    · next hp =>
      obtain ⟨u, hu⟩ := List.isPrefixOf_iff_prefix.1 hp
      simp only [Option.some.injEq, Prod.mk.injEq] at h
      obtain ⟨rfl, rfl⟩ := h
      rw [← hu]
      simp
    · obtain ⟨⟨x, y⟩, hxy, he⟩ := Option.map_eq_some_iff.1 h
      simp only [Prod.mk.injEq] at he
      obtain ⟨rfl, rfl⟩ := he
      rw [ih hxy]
      simp

/-- Before the first character of a class there is none of it. -/
theorem not_of_mem_takeWhile {p : CodePoint → Bool} {t : Text} {c : CodePoint}
    (h : c ∈ t.takeWhile fun x => !p x) : p c = false := by
  have := List.all_eq_true.1 List.all_takeWhile c h
  simpa using this

/-- What goes on from the first character of a class starts with it. -/
theorem of_head?_dropWhile {p : CodePoint → Bool} {t : Text} {c : CodePoint}
    (h : (t.dropWhile fun x => !p x).head? = some c) : p c = true := by
  have hfirst := List.head?_dropWhile_not (fun x => !p x) t
  rw [h] at hfirst
  simpa using hfirst

/-- What follows the last `sep`; the whole text where there is none. -/
def afterLast (sep : CodePoint) (t : Text) : Text :=
  (t.reverse.takeWhile (· ≠ sep)).reverse

/-- What stands before the last `sep`; the whole text where there is none. -/
def beforeLast (sep : CodePoint) (t : Text) : Text :=
  match t.reverse.dropWhile (· ≠ sep) with
  | [] => t
  | _ :: r => r.reverse

/-- What stands before the last separator. -/
theorem beforeLast_append {sep : CodePoint} {a x : Text} (hx : sep ∉ x) :
    beforeLast sep (a ++ sep :: x) = a := by
  have hd : (a ++ sep :: x).reverse.dropWhile (· ≠ sep) = sep :: a.reverse := by
    rw [List.reverse_append, List.reverse_cons, List.append_assoc,
      List.dropWhile_append_of_pos fun c hc => ?_]
    · simp
    · have : c ≠ sep := fun h => hx (h ▸ List.mem_reverse.1 hc)
      simpa using this
  rw [beforeLast, hd]
  exact List.reverse_reverse a

/-- The text without the characters of the class at its end. -/
def dropTrailing (p : CodePoint → Bool) (t : Text) : Text :=
  (t.reverse.dropWhile p).reverse

theorem length_dropTrailing_le (p : CodePoint → Bool) (t : Text) :
    (dropTrailing p t).length ≤ t.length :=
  calc (t.reverse.dropWhile p).reverse.length
      = (t.reverse.dropWhile p).length := List.length_reverse
    _ ≤ t.reverse.length := (List.dropWhile_sublist p).length_le
    _ = t.length := List.length_reverse

/-! ### Filling and ordering -/

/-- The text, filled up with spaces on the right to the given width. -/
def padRight (width : Nat) (t : Text) : Text :=
  t ++ List.replicate (width - t.length) (.char ' ')

theorem length_padRight {width : Nat} {t : Text} (h : t.length ≤ width) :
    (padRight width t).length = width := by
  rw [padRight, List.length_append, List.length_replicate, Nat.add_sub_cancel' h]

theorem mem_of_mem_padRight {width : Nat} {t : Text} {c : CodePoint} (hc : c ≠ ' ')
    (h : c ∈ padRight width t) : c ∈ t :=
  (List.mem_append.1 h).resolve_right fun hspace => hc (List.eq_of_mem_replicate hspace)

/-- Alphabetical order by code point. -/
def precedes : Text → Text → Bool
  | [], _ => true
  | _ :: _, [] => false
  | a :: r, b :: s => if a = b then precedes r s else a.toNat ≤ b.toNat

end Text

end CodingPolicy
