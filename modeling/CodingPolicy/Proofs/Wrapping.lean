/-
CodingPolicy/Proofs/Wrapping.lean

What the lines of a wrapped paragraph are like.  The lines are set one after the other, each
from the pieces that the one before has left (`Text.Wrap.Lays`), and what one line does to the
pieces is said once: it is short enough (`length_takeLine_le`), loses nothing
(`flatten_takeLine`), and leaves pieces as it found them (`Cut.takeLine`), for even a piece
that is broken stays a run of spaces, or without a space.

White space comes in two kinds here.  A line may end at ASCII white space alone, but a piece
is dropped for being blank in the sense of every script.  A run of no-break spaces is such a
piece, and behind it there may be a run of spaces, which is then not dropped: only one piece is.
So a line that is not the first can start with a space, but only right behind white space of
another script (`Lays.isHidden`).

Main results: no line is too long (`length_le_of_mem_wrap`), all that is not white space is
there in its order (`ink_wrap`), no line holds a line end (`newline_not_mem_wrap`), and a line
that is not the first starts with a space in no other case than that
(`isHidden_of_mem_wrap_tail`).
-/
import Mathlib.Data.List.Chain
import CodingPolicy.Text.Table

namespace CodingPolicy.Text

/-! ### What is not white space -/

variable {c : CodePoint} {t u : Text}

/-- The characters of a text that are not white space. -/
def ink (t : Text) : Text :=
  t.filter fun c => !isBlank c

@[simp] theorem ink_append (t u : Text) : ink (t ++ u) = ink t ++ ink u :=
  List.filter_append ..

theorem ink_of_isBlankText (h : isBlankText t = true) : ink t = [] := by
  rw [ink, List.filter_eq_nil_iff]
  intro c hc
  simp [List.all_eq_true.1 h c hc]

theorem ink_cons_congr (c : CodePoint) (h : ink t = ink u) : ink (c :: t) = ink (c :: u) := by
  show ink ([c] ++ t) = ink ([c] ++ u)
  rw [ink_append, ink_append, h]

theorem ink_cons_of_isBlank (h : isBlank c = true) (t : Text) : ink (c :: t) = ink t :=
  List.filter_cons_of_neg (by simp [h])

namespace Wrap

variable {width column : Nat} {started : Bool} {mode : Mode} {p q line behind current : Text}
variable {ps ls : List Text}

theorem isBlank_of_isSpace (h : isSpace c = true) : isBlank c = true := by
  simp only [isSpace, Bool.or_eq_true, beq_iff_eq, Bool.and_eq_true, decide_eq_true_eq] at h
  rcases h with rfl | h
  · rfl
  · exact inRanges_iff.2 ⟨(0x9, 0xd), .head _, h⟩

/-- White space at which no line may end. -/
def isHidden (c : CodePoint) : Bool :=
  isBlank c && !isSpace c

/-! ### The flattened text -/

theorem ink_expandTabs (column : Nat) (t : Text) : ink (expandTabs column t) = ink t := by
  fun_induction expandTabs column t with
  | case1 => rfl
  | case2 column r width ih =>
    have hblank : isBlankText (List.replicate width (.char ' ')) = true := by
      rw [isBlankText, List.all_eq_true]
      intro c hc
      rw [List.eq_of_mem_replicate hc]
      rfl
    rw [ink_append, ink_of_isBlankText hblank, ih]
    rfl
  | case3 column c r _ _ ih => exact ink_cons_congr c ih
  | case4 column c r _ _ ih => exact ink_cons_congr c ih

/-- Flattening takes away and adds nothing but white space. -/
theorem ink_flatten (t : Text) : ink (flatten t) = ink t := by
  rw [← ink_expandTabs 0 t, flatten]
  generalize expandTabs 0 t = u
  induction u with
  | nil => rfl
  | cons c u ih =>
    rw [List.map_cons]
    by_cases h : isSpace c = true
    · rw [if_pos h, ink_cons_of_isBlank (isBlank_of_isSpace h)]
      exact ih
    · rw [if_neg h]
      exact ink_cons_congr c ih

/-- The only white space at which a line may end is the space. -/
theorem eq_space_of_mem_flatten (hc : c ∈ flatten t) (h : isSpace c = true) : c = ' ' := by
  obtain ⟨d, -, rfl⟩ := List.mem_map.1 hc
  by_cases hd : isSpace d = true
  · rw [if_pos hd]
  · rw [if_neg hd] at h
    exact absurd h hd

/-- No white space at which no line may end stands right before white space at which one may. -/
def OpenlySpaced (t : Text) : Prop :=
  t.IsChain fun c d => isHidden c = true → isSpace d = false

theorem isHidden_of_isSpace (h : isSpace c = true) : isHidden c = false := by
  rw [isHidden, h]
  exact Bool.and_false _

/-- Expanded tabs start with white space, as the tab did. -/
theorem head?_expandTabs (column : Nat) (t : Text) :
    (expandTabs column t).head?.map isSpace = t.head?.map isSpace := by
  cases t with
  | nil => rfl
  | cons c r =>
    rw [expandTabs]
    split
    · next h =>
      subst h
      obtain ⟨n, hn⟩ : ∃ n, 8 - column % 8 = n + 1 :=
        Nat.exists_eq_add_one.2 (Nat.sub_pos_of_lt (Nat.mod_lt column (by decide)))
      show (List.replicate (8 - column % 8) (.char ' ') ++ _).head?.map isSpace = _
      rw [hn]
      rfl
    · split <;> rfl

theorem openlySpaced_expandTabs (column : Nat) (h : OpenlySpaced t) :
    OpenlySpaced (expandTabs column t) := by
  unfold OpenlySpaced at *
  fun_induction expandTabs column t with
  | case1 => exact h
  | case2 column r width ih =>
    have hspaces : ∀ c ∈ List.replicate width (.char ' '), isHidden c = false := fun c hc => by
      rw [List.eq_of_mem_replicate hc]
      rfl
    refine (List.isChain_replicate_of_rel width nofun).append (ih h.tail) fun c hc d _ hhidden => ?_
    rw [hspaces c (List.mem_of_mem_getLast? hc)] at hhidden
    cases hhidden
  | case3 column c r _ hc ih =>
    have hspace : isSpace c = true := by rcases hc with rfl | rfl <;> rfl
    refine (ih h.tail).cons fun d _ hhidden => ?_
    rw [isHidden_of_isSpace hspace] at hhidden
    cases hhidden
  | case4 column c r _ _ ih =>
    refine (ih h.tail).cons fun d hd hhidden => ?_
    -- what follows is of the kind that followed before
    have hkind := head?_expandTabs (column + 1) r
    rw [Option.mem_def.1 hd] at hkind
    obtain ⟨e, he, hkind⟩ := Option.map_eq_some_iff.1 hkind.symm
    rw [← hkind]
    exact h.rel_head? he hhidden

theorem openlySpaced_flatten (h : OpenlySpaced t) : OpenlySpaced (flatten t) := by
  refine (List.isChain_map _).2 ((openlySpaced_expandTabs 0 h).imp fun c d hcd hhidden => ?_)
  by_cases hc : isSpace c = true
  · rw [if_pos hc] at hhidden
    cases hhidden
  · rw [if_neg hc] at hhidden
    have hd : isSpace d = false := hcd hhidden
    rw [hd]
    exact hd

/-! ### The pieces -/

/-- Pieces as they are cut and used up: runs of spaces and words, where no two runs of spaces
follow each other. -/
structure Cut (ps : List Text) : Prop where
  /-- No piece is empty. -/
  ne_nil : ∀ p ∈ ps, p ≠ []
  /-- A piece is a run of spaces, or there is no space in it. -/
  uniform : ∀ p ∈ ps, ∃ b, ∀ c ∈ p, isSpace c = b
  /-- Behind a run of spaces comes a word. -/
  parted : ps.IsChain fun p q => ∀ c ∈ p, isSpace c = true → ∀ d ∈ q, isSpace d = false

namespace Cut

theorem nil : Cut [] :=
  ⟨nofun, nofun, .nil⟩

theorem suffix {qs : List Text} (h : Cut ps) (hs : qs <:+ ps) : Cut qs :=
  ⟨fun p hp => h.ne_nil p (hs.subset hp), fun p hp => h.uniform p (hs.subset hp),
    h.parted.suffix hs⟩

/-- What is left of a broken piece is a piece of its kind. -/
theorem broken {k : Nat} (h : Cut (p :: ps)) (hk : k < p.length) : Cut (p.drop k :: ps) := by
  have hmem : ∀ c ∈ p.drop k, c ∈ p := fun c hc => List.mem_of_mem_drop hc
  refine ⟨?_, ?_, ?_⟩
  · refine List.forall_mem_cons.2 ⟨fun he => ?_, (List.forall_mem_cons.1 h.ne_nil).2⟩
    rw [List.drop_eq_nil_iff] at he
    omega
  · obtain ⟨b, hb⟩ := h.uniform p (.head _)
    exact List.forall_mem_cons.2 ⟨⟨b, fun c hc => hb c (hmem c hc)⟩,
      (List.forall_mem_cons.1 h.uniform).2⟩
  · exact h.parted.tail.cons fun q hq c hc => h.parted.rel_head? hq c (hmem c hc)

/-- The first piece is of the kind of the first character. -/
theorem isSpace_of_head? (h : Cut ps) (hc : ps.flatten.head? = some c) :
    ∃ q r, ps = q :: r ∧ ∀ d ∈ q, isSpace d = isSpace c := by
  cases ps with
  | nil => cases hc
  | cons q r =>
    obtain ⟨e, q, rfl⟩ := List.exists_cons_of_ne_nil (h.ne_nil q (.head _))
    cases hc
    obtain ⟨b, hb⟩ := h.uniform _ (.head _)
    exact ⟨_, r, rfl, fun d hd => (hb d hd).trans (hb _ (.head _)).symm⟩

/-- A piece that is closed comes before the others, if it is not one run of spaces with the
next. -/
theorem close_append (h : Cut ps) (hb : ∃ b, ∀ c ∈ current, isSpace c = b)
    (hnext : ∀ c ∈ current, isSpace c = true → ∀ d, ps.flatten.head? = some d → isSpace d = false) :
    Cut (close current ++ ps) := by
  unfold close
  split
  · exact h
  · next hne =>
    obtain ⟨b, hb⟩ := hb
    refine ⟨?_, ?_, ?_⟩
    · exact List.forall_mem_cons.2 ⟨fun he => hne (List.reverse_eq_nil_iff.1 he), h.ne_nil⟩
    · exact List.forall_mem_cons.2 ⟨⟨b, fun c hc => hb c (List.mem_reverse.1 hc)⟩, h.uniform⟩
    · refine h.parted.cons fun q hq c hc hspace d hd => ?_
      obtain ⟨r, rfl⟩ : ∃ r, ps = q :: r := List.head?_eq_some_iff.1 hq
      obtain ⟨e, q, rfl⟩ := List.exists_cons_of_ne_nil (h.ne_nil q (.head _))
      obtain ⟨b', hb'⟩ := h.uniform _ (.head _)
      rw [hb' d hd, ← hb' e (.head _)]
      exact hnext c (List.mem_reverse.1 hc) hspace e rfl

end Cut

/-- What has been read of a piece is of the kind that is being read. -/
def Reading (mode : Mode) (current : Text) : Prop :=
  match mode with
  | .fresh => current = []
  | .spaces => ∀ c ∈ current, isSpace c = true
  | .dash | .word => ∀ c ∈ current, isSpace c = false

theorem reading_fresh : Reading .fresh [] := rfl

theorem Reading.uniform (h : Reading mode current) : ∃ b, ∀ c ∈ current, isSpace c = b := by
  cases mode with
  | fresh =>
    cases h
    exact ⟨true, nofun⟩
  | spaces => exact ⟨true, h⟩
  | dash => exact ⟨false, h⟩
  | word => exact ⟨false, h⟩

/-- A piece that starts is of the kind of its first character. -/
theorem reading_startMode (behind : Text) (c : CodePoint) (r : Text) :
    Reading (startMode behind (c :: r)) [c] := by
  unfold startMode
  dsimp only
  split
  · next h => exact List.forall_mem_singleton.2 h
  · next h =>
    have hword : ∀ d ∈ [c], isSpace d = false := List.forall_mem_singleton.2 (by simpa using h)
    split <;> exact hword

/-- A piece that goes on stays of its kind. -/
theorem Reading.cons (h : Reading mode current) {r : Text} (hmode : mode ≠ .fresh)
    (hgo : endsBefore mode behind (c :: r) = false) : Reading mode (c :: current) := by
  cases mode with
  | fresh => exact absurd rfl hmode
  | spaces => exact List.forall_mem_cons.2 ⟨by simpa [endsBefore] using hgo, h⟩
  | dash =>
    have hc : c = '-' := by simpa [endsBefore] using hgo
    exact List.forall_mem_cons.2 ⟨hc ▸ rfl, h⟩
  | word =>
    rw [endsBefore, Bool.or_eq_false_iff] at hgo
    exact List.forall_mem_cons.2 ⟨hgo.1, h⟩

theorem cut_piecesFrom (h : Reading mode current) (t : Text) :
    Cut (piecesFrom mode behind current t) := by
  induction t generalizing mode behind current with
  | nil =>
    rw [piecesFrom, ← List.append_nil (close current)]
    refine Cut.nil.close_append h.uniform fun _ _ _ d hd => ?_
    cases hd
  | cons c r ih =>
    rw [piecesFrom]
    split
    · next hend =>
      -- the next piece starts with the character that ended this one
      refine (ih (reading_startMode behind c r)).close_append h.uniform fun d hd hspace e he => ?_
      rw [flatten_piecesFrom] at he
      cases he
      cases mode with
      | fresh =>
        cases h
        cases hd
      | spaces => simpa [endsBefore] using hend
      | dash => cases (h d hd).symm.trans hspace
      | word => cases (h d hd).symm.trans hspace
    · next hgo =>
      rw [Bool.or_eq_true, not_or, Bool.not_eq_true, beq_iff_eq] at hgo
      have hon : Reading mode (c :: current) := h.cons hgo.2 hgo.1
      split
      · next hhyphen =>
        rw [Bool.and_eq_true, Bool.and_eq_true, beq_iff_eq] at hhyphen
        obtain ⟨⟨rfl, -⟩, -⟩ := hhyphen
        -- behind a hyphen that ends a piece there may be anything
        refine (ih reading_fresh).close_append ⟨false, hon⟩ fun d hd hspace => ?_
        cases (hon d hd).symm.trans hspace
      · exact ih hon

theorem cut_pieces (t : Text) : Cut (pieces t) :=
  cut_piecesFrom reading_fresh t

/-! ### One line -/

theorem takeFitting_append (room : Nat) (ps : List Text) :
    (takeFitting room ps).1 ++ (takeFitting room ps).2 = ps := by
  induction ps generalizing room with
  | nil => rfl
  | cons p ps ih =>
    rw [takeFitting]
    split
    · exact congrArg (p :: ·) (ih _)
    · rfl

theorem length_takeFitting_le (room : Nat) (ps : List Text) :
    (takeFitting room ps).1.flatten.length ≤ room := by
  induction ps generalizing room with
  | nil => exact Nat.zero_le _
  | cons p ps ih =>
    rw [takeFitting]
    split
    · have := ih (room - p.length)
      show (p ++ (takeFitting (room - p.length) ps).1.flatten).length ≤ room
      rw [List.length_append]
      omega
    · exact Nat.zero_le _

theorem breakPoint_le (room : Nat) (p : Text) : breakPoint room p ≤ room := by
  have hhead : (p.take room).length ≤ room := List.length_take_le ..
  have hhyphen := length_dropTrailing_le (· ≠ .char '-') (p.take room)
  unfold breakPoint
  dsimp only
  split <;> omega

/-- **What a line takes**: the pieces that fit, and of a piece that is longer than any line as
much as there is still room for. -/
theorem takeLine_cases (width : Nat) (ps : List Text) :
    takeLine width ps = takeFitting width ps ∨
      ∃ p r cut, (takeFitting width ps).2 = p :: r ∧ width < p.length ∧
        (takeFitting width ps).1.flatten.length + cut ≤ width ∧
        takeLine width ps = ((takeFitting width ps).1 ++ [p.take cut], p.drop cut :: r) := by
  unfold takeLine
  dsimp only
  split
  · exact .inl rfl
  · next p r he =>
    split
    · next hlong =>
      refine .inr ⟨p, r, _, he, hlong, ?_, rfl⟩
      have := breakPoint_le (width - (takeFitting width ps).1.flatten.length) p
      have := length_takeFitting_le width ps
      omega
    · exact .inl rfl

/-- Nothing is lost between a line and what is left over. -/
theorem flatten_takeLine (width : Nat) (ps : List Text) :
    (takeLine width ps).1.flatten ++ (takeLine width ps).2.flatten = ps.flatten := by
  have hparts := takeFitting_append width ps
  rcases takeLine_cases width ps with he | ⟨p, r, cut, hrest, -, -, he⟩
  · rw [he, ← List.flatten_append, hparts]
  · rw [he]
    rw [hrest] at hparts
    conv_rhs => rw [← hparts]
    have hpiece : p.take cut ++ (p.drop cut ++ r.flatten) = p ++ r.flatten := by
      rw [← List.append_assoc, List.take_append_drop]
    simp [hpiece]

theorem length_takeLine_le (width : Nat) (ps : List Text) :
    (takeLine width ps).1.flatten.length ≤ width := by
  rcases takeLine_cases width ps with he | ⟨p, r, cut, -, -, hle, he⟩
  · rw [he]
    exact length_takeFitting_le width ps
  · have := List.length_take_le cut p
    rw [he, List.flatten_append, List.length_append, List.flatten_singleton]
    omega

theorem Cut.takeLine (h : Cut ps) (width : Nat) : Cut (takeLine width ps).2 := by
  have hsuffix : (takeFitting width ps).2 <:+ ps := ⟨_, takeFitting_append width ps⟩
  rcases takeLine_cases width ps with he | ⟨p, r, cut, hrest, hlong, hle, he⟩
  · rw [he]
    exact h.suffix hsuffix
  · rw [he]
    rw [hrest] at hsuffix
    exact (h.suffix hsuffix).broken (by omega)

/-- A blank piece at the end of a line is white space. -/
theorem dropBlankLast_cases (ps : List Text) :
    dropBlankLast ps = ps ∨ ∃ p, isBlankText p = true ∧ ps = dropBlankLast ps ++ [p] := by
  unfold dropBlankLast
  split
  · exact .inl rfl
  · next p hp =>
    split
    · next hblank => exact .inr ⟨p, hblank, (List.dropLast_append_getLast? p hp).symm⟩
    · exact .inl rfl

theorem isPrefix_dropBlankLast (ps : List Text) : (dropBlankLast ps).flatten <+: ps.flatten := by
  rcases dropBlankLast_cases ps with he | ⟨p, -, he⟩
  · exact ⟨[], (List.append_nil _).trans (congrArg List.flatten he)⟩
  · refine ⟨p, ?_⟩
    conv_rhs => rw [he]
    simp

theorem ink_dropBlankLast (ps : List Text) : ink (dropBlankLast ps).flatten = ink ps.flatten := by
  rcases dropBlankLast_cases ps with he | ⟨p, hp, he⟩
  · rw [he]
  · conv_rhs => rw [he]
    simp [ink_of_isBlankText hp]

/-- The pieces that a line starts from. -/
def front (started : Bool) (ps : List Text) : List Text :=
  if started then dropBlankFirst ps else ps

theorem front_cases (started : Bool) (ps : List Text) :
    front started ps = ps ∨
      ∃ p, started = true ∧ isBlankText p = true ∧ ps = p :: front started ps := by
  unfold front dropBlankFirst
  split
  · next h =>
    split
    · exact .inl rfl
    · next p r =>
      split
      · next hblank => exact .inr ⟨p, h, hblank, rfl⟩
      · exact .inl rfl
  · exact .inl rfl

theorem isSuffix_front (started : Bool) (ps : List Text) : front started ps <:+ ps := by
  rcases front_cases started ps with he | ⟨p, -, -, he⟩
  · exact ⟨[], he⟩
  · exact ⟨[p], he.symm⟩

theorem isSuffix_flatten_front (started : Bool) (ps : List Text) :
    (front started ps).flatten <:+ ps.flatten := by
  obtain ⟨before, he⟩ := isSuffix_front started ps
  exact ⟨before.flatten, by rw [← List.flatten_append, he]⟩

theorem ink_front (started : Bool) (ps : List Text) :
    ink (front started ps).flatten = ink ps.flatten := by
  rcases front_cases started ps with he | ⟨p, -, hp, he⟩
  · rw [he]
  · conv_rhs => rw [he]
    simp [ink_of_isBlankText hp]

/-- **A line that is not the first starts with a space only behind white space at which no line
may end.** -/
theorem Cut.isHidden_of_front (h : Cut ps) (hc : (front true ps).flatten.head? = some c)
    (hspace : isSpace c = true) :
    ∃ d, isHidden d = true ∧ d :: (front true ps).flatten <:+ ps.flatten := by
  have hfront := h.suffix (isSuffix_front true ps)
  obtain ⟨q, r, hq, hall⟩ := hfront.isSpace_of_head? hc
  rw [hspace] at hall
  cases ps with
  | nil => cases hq
  | cons p ps =>
    by_cases hblank : isBlankText p = true
    · have hdrop : front true (p :: ps) = ps := if_pos hblank
      rw [hdrop] at hq ⊢
      subst hq
      obtain ⟨e, q, rfl⟩ := List.exists_cons_of_ne_nil (h.ne_nil q (.tail _ (.head _)))
      -- two runs of spaces do not follow each other, so the piece that was dropped is none
      have hword : ∀ d ∈ p, isSpace d = false := by
        intro d hd
        rw [← Bool.not_eq_true]
        intro hd'
        cases (hall e (.head _)).symm.trans (h.parted.rel_head? rfl d hd hd' e (.head _))
      have hne : p ≠ [] := h.ne_nil p (.head _)
      refine ⟨p.getLast hne, ?_, p.dropLast, ?_⟩
      · have hmem := List.getLast_mem hne
        rw [isHidden, hword _ hmem, List.all_eq_true.1 hblank _ hmem]
        rfl
      · rw [List.append_cons, List.dropLast_concat_getLast]
        rfl
    · -- a piece that starts with a space is blank
      have hkeep : front true (p :: ps) = p :: ps := if_neg hblank
      rw [hkeep] at hq
      cases hq
      refine absurd (List.all_eq_true.2 fun d hd => ?_) hblank
      exact isBlank_of_isSpace (hall d hd)

/-! ### All lines -/

/-- The lines that pieces are set in, one after the other: a line takes what it can hold, and
counts for none where nothing but a blank piece is on it. -/
inductive Lays (width : Nat) : Bool → List Text → List Text → Prop
  /-- Without pieces there is no line. -/
  | done {started : Bool} {ps : List Text} (h : front started ps = []) : Lays width started ps []
  /-- A blank line is left out. -/
  | blank {started : Bool} {ps ls : List Text}
      (h : dropBlankLast (takeLine width (front started ps)).1 = [])
      (rest : Lays width started (takeLine width (front started ps)).2 ls) :
      Lays width started ps ls
  /-- A line comes before those of the pieces that it leaves. -/
  | line {started : Bool} {ps ls : List Text}
      (rest : Lays width true (takeLine width (front started ps)).2 ls) :
      Lays width started ps
        ((dropBlankLast (takeLine width (front started ps)).1).flatten :: ls)

theorem lays_lines (width : Nat) (started : Bool) (ps : List Text) :
    Lays (width + 1) started ps (lines width started ps) := by
  fun_induction lines width started ps with
  | case1 started ps ps' h => exact .done h
  | case2 started ps ps' _ taken line h ih => exact .blank h ih
  | case3 started ps ps' _ taken line _ ih => exact .line ih

namespace Lays

/-- No line is too long. -/
theorem length_le (h : Lays width started ps ls) : ∀ line ∈ ls, line.length ≤ width := by
  induction h with
  | done => exact nofun
  | blank _ _ ih => exact ih
  | @line started ps ls _ ih =>
    refine List.forall_mem_cons.2 ⟨?_, ih⟩
    exact (isPrefix_dropBlankLast _).length_le.trans (length_takeLine_le width _)

theorem ink_takeLine (width : Nat) (started : Bool) (ps : List Text) :
    ink ps.flatten = ink (dropBlankLast (takeLine width (front started ps)).1).flatten ++
      ink (takeLine width (front started ps)).2.flatten := by
  rw [ink_dropBlankLast, ← ink_append, flatten_takeLine, ink_front]

/-- What is not white space is on the lines in its order. -/
theorem ink_flatten (h : Lays width started ps ls) : ink ls.flatten = ink ps.flatten := by
  induction h with
  | @done started ps h =>
    rw [← ink_front started ps, h]
  | @blank started ps ls h _ ih =>
    rw [ih, ink_takeLine width started ps, h]
    rfl
  | @line started ps ls _ ih =>
    rw [List.flatten_cons, ink_append, ih, ← ink_takeLine]

theorem isSuffix_rest (width : Nat) (started : Bool) (ps : List Text) :
    (takeLine width (front started ps)).2.flatten <:+ ps.flatten :=
  List.IsSuffix.trans ⟨_, flatten_takeLine width (front started ps)⟩
    (isSuffix_flatten_front started ps)

theorem isPrefix_line (width : Nat) (started : Bool) (ps : List Text) :
    (dropBlankLast (takeLine width (front started ps)).1).flatten <+:
      (front started ps).flatten :=
  (isPrefix_dropBlankLast _).trans ⟨_, flatten_takeLine width (front started ps)⟩

/-- A line is a stretch of the text. -/
theorem isInfix (h : Lays width started ps ls) : ∀ line ∈ ls, line <:+: ps.flatten := by
  induction h with
  | done => exact nofun
  | @blank started ps ls _ _ ih =>
    exact fun line hline => (ih line hline).trans (isSuffix_rest width started ps).isInfix
  | @line started ps ls _ ih =>
    refine List.forall_mem_cons.2 ⟨?_, fun line hline =>
      (ih line hline).trans (isSuffix_rest width started ps).isInfix⟩
    exact (isPrefix_line width started ps).isInfix.trans (isSuffix_flatten_front started ps).isInfix

/-- **A line that is not the first starts with a space only behind white space at which no line
may end.** -/
theorem isHidden (h : Lays width started ps ls) (hcut : Cut ps) :
    ∀ line ∈ if started then ls else ls.tail, ∀ c, line.head? = some c → isSpace c = true →
      ∃ d, isHidden d = true ∧ d :: line <:+: ps.flatten := by
  induction h with
  | done => simp
  | @blank started ps ls _ _ ih =>
    intro line hline c hc hspace
    obtain ⟨d, hd, hinfix⟩ := ih ((hcut.suffix (isSuffix_front started ps)).takeLine width) line
      hline c hc hspace
    exact ⟨d, hd, hinfix.trans (isSuffix_rest width started ps).isInfix⟩
  | @line started ps ls _ ih =>
    have hrest := ih ((hcut.suffix (isSuffix_front started ps)).takeLine width)
    have hlater : ∀ line ∈ ls, ∀ c, line.head? = some c → isSpace c = true →
        ∃ d, Wrap.isHidden d = true ∧ d :: line <:+: ps.flatten := by
      intro line hline c hc hspace
      obtain ⟨d, hd, hinfix⟩ := hrest line hline c hc hspace
      exact ⟨d, hd, hinfix.trans (isSuffix_rest width started ps).isInfix⟩
    cases started with
    | false => exact hlater
    | true =>
      refine List.forall_mem_cons.2 ⟨fun c hc hspace => ?_, hlater⟩
      obtain ⟨more, hmore⟩ := isPrefix_line width true ps
      have hfront : (front true ps).flatten.head? = some c := by
        rw [← hmore, List.head?_append, hc]
        rfl
      obtain ⟨d, hd, hsuffix⟩ := hcut.isHidden_of_front hfront hspace
      rw [← hmore, ← List.cons_append] at hsuffix
      exact ⟨d, hd, (List.prefix_append _ more).isInfix.trans hsuffix.isInfix⟩

end Lays

/-! ### Paragraphs -/

theorem lays_wrap (hw : 0 < width) (t : Text) :
    Lays width false (pieces (flatten t)) (wrap width t) := by
  have h := lays_lines (width - 1) false (pieces (flatten t))
  rwa [Nat.sub_add_cancel hw] at h

/-- **No line of a paragraph is too long.** -/
theorem length_le_of_mem_wrap (hw : 0 < width) (h : line ∈ wrap width t) : line.length ≤ width :=
  (lays_wrap hw t).length_le line h

/-- **What is not white space in a paragraph is on its lines, in its order.** -/
theorem ink_wrap (hw : 0 < width) (t : Text) : ink (wrap width t).flatten = ink t := by
  rw [(lays_wrap hw t).ink_flatten, flatten_pieces, ink_flatten]

theorem isInfix_of_mem_wrap (hw : 0 < width) (h : line ∈ wrap width t) : line <:+: flatten t := by
  have hinfix := (lays_wrap hw t).isInfix line h
  rwa [flatten_pieces] at hinfix

/-- No line of a paragraph holds a line end. -/
theorem newline_not_mem_wrap (hw : 0 < width) (h : line ∈ wrap width t) : .char '\n' ∉ line := by
  intro hmem
  cases eq_space_of_mem_flatten ((isInfix_of_mem_wrap hw h).subset hmem) rfl

/-- **A line of a paragraph that is not the first starts with a space only behind white space
at which no line may end.** -/
theorem isHidden_of_mem_wrap_tail (hw : 0 < width) (h : line ∈ (wrap width t).tail)
    (hc : line.head? = some (.char ' ')) : ∃ d, isHidden d = true ∧ d :: line <:+: flatten t := by
  have hhidden := (lays_wrap hw t).isHidden (cut_pieces _) line h ' ' hc rfl
  rwa [flatten_pieces] at hhidden

/-- Where no such white space stands before a space, no line but the first starts with one. -/
theorem head?_ne_of_mem_wrap_tail (hw : 0 < width) (ht : OpenlySpaced t)
    (h : line ∈ (wrap width t).tail) : line.head? ≠ some (.char ' ') := by
  intro hc
  obtain ⟨d, hd, hinfix⟩ := isHidden_of_mem_wrap_tail hw h hc
  obtain ⟨r, rfl⟩ : ∃ r, line = .char ' ' :: r := List.head?_eq_some_iff.1 hc
  obtain ⟨before, after, he⟩ := hinfix
  have hchain := openlySpaced_flatten ht
  rw [OpenlySpaced, ← he] at hchain
  cases hchain.left_of_append.right_of_append.rel_head? rfl hd

end Wrap

end CodingPolicy.Text
