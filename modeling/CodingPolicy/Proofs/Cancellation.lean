/-
CodingPolicy/Proofs/Cancellation.lean

Double dots as cancellations.  The pieces between the separators of a text are its
steps (`NamespacePath.steps`), down into a segment or up again, except for the empty
ones and the single dots, which do not count.  A segment and a double dot right
behind it cancel (`NamespacePath.Cancels`), at any place of the list and in any order.

The reading of a path knows nothing of this.  It goes over the pieces once, from left
to right, and keeps behind it the segments that no double dot has taken so far.  What
it does is to cancel (`cancels_of_resolve`), and no cancellation changes what it comes
to (`resolve_of_cancels`); so all orders of cancelling lead to the same segments, and
there is no need to see how two cancellations overlap.  It fails just where some
beginning of the pieces has more double dots than segments (`resolve_eq_none_iff`).

Main result: `NamespacePath.reading_of_absolute`.
-/
import Mathlib.Logic.Relation
import CodingPolicy.Proofs.Inheritance
import CodingPolicy.Proofs.Spelling

namespace CodingPolicy

namespace NamespacePath

open Relation

variable {x : Text} {behind pieces rest r left left' : List Text}

/-! ### Pieces that count -/

/-- The pieces of a text that count, in their order: neither empty nor a single dot. -/
def steps (t : Text) : List Text :=
  (Text.splitOn separator t).filter fun x => x ≠ [] ∧ x ≠ [.char '.']

/-- The pieces that do not count make no difference. -/
theorem resolve_filter (behind pieces : List Text) :
    resolve behind (pieces.filter fun x => x ≠ [] ∧ x ≠ [.char '.']) = resolve behind pieces := by
  induction pieces generalizing behind with
  | nil => rfl
  | cons x r ih =>
    by_cases hx : x = [] ∨ x = [.char '.']
    · have hcounts : ¬ (x ≠ [] ∧ x ≠ [.char '.']) := fun h => hx.elim h.1 h.2
      simp only [List.filter_cons, decide_eq_true_eq, if_neg hcounts, resolve_skip hx, ih]
    · simp only [List.filter_cons, decide_eq_true_eq, if_pos (not_or.1 hx)]
      -- both go the same step, and then over what follows
      by_cases hd : x = [.char '.', .char '.']
      · subst hd
        cases behind with
        | nil => rfl
        | cons y b => rw [resolve_dots, resolve_dots, ih]
      · simp only [resolve, if_neg hx, if_neg hd, ih]

/-- A text stands for the path of what is left of the pieces that count. -/
theorem normalize?_eq_steps (t : Text) :
    normalize? t = (resolve [] (steps t)).map ofSegments := by
  rw [steps, resolve_filter]
  rfl

/-- The piece is a step: down into a segment, or up again. -/
def IsStep (x : Text) : Prop :=
  Segment x ∨ x = [.char '.', .char '.']

theorem isStep_of_mem_steps {t : Text} : ∀ x ∈ steps t, IsStep x := by
  intro x hx
  obtain ⟨hx, hcounts⟩ := List.mem_filter.1 hx
  obtain ⟨hne, hdot⟩ := of_decide_eq_true hcounts
  by_cases hdots : x = [.char '.', .char '.']
  · exact .inr hdots
  · exact .inl ⟨hne, hdot, hdots, Text.not_mem_of_mem_splitOn hx⟩

theorem IsStep.no_separator (h : IsStep x) : separator ∉ x := by
  rcases h with h | rfl
  · exact h.no_separator
  · simp [separator]

/-! ### Cancelling -/

/-- One cancellation: a segment goes with the double dot right behind it. -/
inductive Cancels : List Text → List Text → Prop
  | pair {x : Text} (hx : Segment x) (before after : List Text) :
      Cancels (before ++ x :: [.char '.', .char '.'] :: after) (before ++ after)

/-- Cancellations, one after the other. -/
abbrev Cancellations : List Text → List Text → Prop :=
  ReflTransGen Cancels

/-- What is left when the double dots have been cancelled, in some order. -/
structure Cancelled (pieces left : List Text) : Prop where
  /-- Cancellations lead to what is left. -/
  cancellations : Cancellations pieces left
  /-- No double dot is left. -/
  no_dots : [.char '.', .char '.'] ∉ left

theorem Cancels.length_eq (h : Cancels pieces rest) : pieces.length = rest.length + 2 := by
  cases h with
  | pair hx before after =>
    simp only [List.length_append, List.length_cons]
    omega

/-- **Cancelling comes to an end**, for it makes the list shorter. -/
theorem wellFounded_cancels : WellFounded fun rest pieces => Cancels pieces rest := by
  apply Subrelation.wf ?_ (measure List.length).wf
  intro rest pieces h
  show rest.length < pieces.length
  rw [h.length_eq]
  omega

theorem Cancels.subset (h : Cancels pieces rest) : rest ⊆ pieces := by
  cases h with
  | pair hx before after =>
    intro y hy
    simp only [List.mem_append, List.mem_cons] at hy ⊢
    exact hy.imp_right fun hy => .inr (.inr hy)

theorem isStep_of_cancellations (hp : ∀ x ∈ pieces, IsStep x) (h : Cancellations pieces rest) :
    ∀ x ∈ rest, IsStep x := by
  induction h with
  | refl => exact hp
  | tail _ hstep ih => exact fun x hx => ih x (hstep.subset hx)

/-- **A cancellation does not change what the pieces are resolved into.** -/
theorem resolve_of_cancels (h : Cancels pieces rest) (behind : List Text) :
    resolve behind pieces = resolve behind rest := by
  cases h with
  | pair hx before after =>
    rw [resolve_append, resolve_append]
    apply congrArg (Option.bind _)
    funext segments
    rw [resolve_segment hx, resolve_dots]

theorem resolve_of_cancellations (h : Cancellations pieces rest) (behind : List Text) :
    resolve behind pieces = resolve behind rest := by
  induction h with
  | refl => rfl
  | tail _ hstep ih => rw [ih, resolve_of_cancels hstep]

/-- **What the reading does is to cancel**: what is behind it, followed by what
is before it, cancels to the segments that it comes to. -/
theorem cancels_of_resolve (h : resolve behind pieces = some left) (hb : ∀ x ∈ behind, Segment x)
    (hp : ∀ x ∈ pieces, IsStep x) : Cancellations (behind.reverse ++ pieces) left := by
  induction pieces generalizing behind with
  | nil =>
    cases h
    rw [List.append_nil]
  | cons x r ih =>
    have hr : ∀ y ∈ r, IsStep y := fun y hy => hp y (.tail _ hy)
    rcases hp x (.head _) with hx | rfl
    · rw [resolve_segment hx] at h
      have hxb : ∀ y ∈ x :: behind, Segment y := by
        intro y hy
        rcases List.mem_cons.1 hy with rfl | hy
        · exact hx
        · exact hb y hy
      have hrest := ih h hxb hr
      rw [List.reverse_cons, List.append_assoc] at hrest
      exact hrest
    · cases behind with
      | nil => cases h
      | cons y b =>
        -- the double dot meets the last segment that is behind
        rw [resolve_dots] at h
        have hy : Segment y := hb y (.head _)
        have hrest := ih h (fun z hz => hb z (.tail _ hz)) hr
        rw [List.reverse_cons, List.append_assoc]
        exact .head (.pair hy b.reverse r) hrest

/-- **The pieces are resolved into what is left when the double dots are cancelled.** -/
theorem resolve_eq_some_iff (hp : ∀ x ∈ pieces, IsStep x) :
    resolve [] pieces = some left ↔ Cancelled pieces left := by
  constructor
  · intro h
    refine ⟨cancels_of_resolve h nofun hp, fun hdots => ?_⟩
    exact (segment_of_resolve h nofun (fun y hy => (hp y hy).no_separator) _ hdots).ne_dots rfl
  · intro h
    have hsegments : ∀ x ∈ left, Segment x := by
      intro x hx
      rcases isStep_of_cancellations hp h.cancellations x hx with hx' | rfl
      · exact hx'
      · exact absurd hx h.no_dots
    rw [resolve_of_cancellations h.cancellations, resolve_of_segments hsegments]
    rfl

theorem Cancelled.segment (hp : ∀ x ∈ pieces, IsStep x) (h : Cancelled pieces left) :
    ∀ x ∈ left, Segment x :=
  segment_of_resolve ((resolve_eq_some_iff hp).2 h) nofun fun y hy => (hp y hy).no_separator

/-- **As long as a double dot is left, one can go on**, if anything is to be left without. -/
theorem Cancelled.exists_cancels (hp : ∀ x ∈ pieces, IsStep x) (h : Cancelled pieces left)
    (hrest : Cancellations pieces rest) (hdots : [.char '.', .char '.'] ∈ rest) :
    ∃ next, Cancels rest next := by
  have hleft : resolve [] rest = some left := by
    rw [← resolve_of_cancellations hrest, (resolve_eq_some_iff hp).2 h]
  have hsteps := ((resolve_eq_some_iff (isStep_of_cancellations hp hrest)).1 hleft).cancellations
  rcases hsteps.cases_head with rfl | ⟨next, hnext, -⟩
  · exact absurd hdots h.no_dots
  · exact ⟨next, hnext⟩

/-! ### Balance -/

/-- Some beginning of the pieces has more double dots than other pieces. -/
def ClimbsOut (pieces : List Text) : Prop :=
  ∃ start, start <+: pieces ∧
    start.countP (· ≠ [.char '.', .char '.']) < start.count [.char '.', .char '.']

/-- The pieces have more double dots than there are segments to take: those behind them,
which are so many, and their own. -/
def Sinks (height : Nat) (pieces : List Text) : Prop :=
  height + pieces.countP (· ≠ [.char '.', .char '.']) < pieces.count [.char '.', .char '.']

theorem not_sinks_nil (height : Nat) : ¬ Sinks height [] := by
  simp [Sinks]

theorem sinks_segment_iff {height : Nat} (hx : x ≠ [.char '.', .char '.']) :
    Sinks height (x :: r) ↔ Sinks (height + 1) r := by
  have hsegments : (x :: r).countP (· ≠ [.char '.', .char '.']) =
      r.countP (· ≠ [.char '.', .char '.']) + 1 :=
    List.countP_cons_of_pos (decide_eq_true hx)
  have hdots : (x :: r).count [.char '.', .char '.'] = r.count [.char '.', .char '.'] :=
    List.count_cons_of_ne hx
  unfold Sinks
  rw [hsegments, hdots]
  omega

theorem sinks_dots_iff {height : Nat} :
    Sinks (height + 1) ([.char '.', .char '.'] :: r) ↔ Sinks height r := by
  have hsegments : ([.char '.', .char '.'] :: r).countP (· ≠ [.char '.', .char '.']) =
      r.countP (· ≠ [.char '.', .char '.']) :=
    List.countP_cons_of_neg (by simp)
  have hdots : ([.char '.', .char '.'] :: r).count [.char '.', .char '.'] =
      r.count [.char '.', .char '.'] + 1 := List.count_cons_self
  unfold Sinks
  rw [hsegments, hdots]
  omega

/-- What holds of some beginning of a list, and not of the empty one, holds of one that
has the first item. -/
theorem exists_prefix_cons_iff {P : List Text → Prop} (hnil : ¬ P []) :
    (∃ start, start <+: x :: r ∧ P start) ↔ ∃ start, start <+: r ∧ P (x :: start) := by
  constructor
  · rintro ⟨start, hstart, h⟩
    rcases List.prefix_cons_iff.1 hstart with rfl | ⟨tail, rfl, htail⟩
    · exact absurd h hnil
    · exact ⟨tail, htail, h⟩
  · rintro ⟨tail, htail, h⟩
    exact ⟨x :: tail, List.cons_prefix_cons.2 ⟨rfl, htail⟩, h⟩

/-- **The reading fails just where some beginning of the pieces sinks** below the
segments that are behind it. -/
theorem resolve_eq_none_iff (hp : ∀ x ∈ pieces, IsStep x) :
    resolve behind pieces = none ↔ ∃ start, start <+: pieces ∧ Sinks behind.length start := by
  induction pieces generalizing behind with
  | nil => simp [not_sinks_nil]
  | cons x r ih =>
    have hr : ∀ y ∈ r, IsStep y := fun y hy => hp y (.tail _ hy)
    rw [exists_prefix_cons_iff (not_sinks_nil _)]
    rcases hp x (.head _) with hx | rfl
    · rw [resolve_segment hx, ih hr]
      simp only [sinks_segment_iff hx.ne_dots, List.length_cons]
    · cases behind with
      | nil =>
        -- there is nothing to take, and the double dot alone sinks
        exact iff_of_true rfl ⟨[], List.nil_prefix, by simp [Sinks]⟩
      | cons y b =>
        rw [resolve_dots, ih hr]
        simp only [sinks_dots_iff, List.length_cons]

theorem resolve_nil_eq_none_iff (hp : ∀ x ∈ pieces, IsStep x) :
    resolve [] pieces = none ↔ ClimbsOut pieces := by
  rw [resolve_eq_none_iff hp]
  simp only [ClimbsOut, Sinks, List.length_nil, Nat.zero_add]

/-- The double dots of pieces that do not climb out can be cancelled. -/
theorem exists_cancelled_iff (hp : ∀ x ∈ pieces, IsStep x) :
    (∃ left, Cancelled pieces left) ↔ ¬ ClimbsOut pieces := by
  rw [← resolve_nil_eq_none_iff hp, ← ne_eq, Option.ne_none_iff_exists']
  simp only [resolve_eq_some_iff hp]

/-! ### Main result -/

/-- Paths of different segments are different. -/
theorem ofSegments_inj (h : ∀ x ∈ left, Segment x) (h' : ∀ x ∈ left', Segment x)
    (he : ofSegments left = ofSegments left') : left = left' := by
  have hl := resolve_ofSegments h
  rw [he, resolve_ofSegments h'] at hl
  exact (Option.some.inj hl).symm

/-- Only the root ends with a separator. -/
theorem getLast?_ofSegments (h : ∀ x ∈ left, Segment x) (hne : left ≠ []) :
    (ofSegments left).getLast? ≠ some separator := by
  rw [← List.dropLast_concat_getLast hne]
  exact getLast?_ofSegments_concat left.dropLast (h _ (List.getLast_mem hne))

/-- The reading of an absolute text comes to what is left, or to nothing. -/
theorem parse_of_cancelled {t : Text} (ht : t.head? = some separator) (hn : .char '\x00' ∉ t)
    (h : Cancelled (steps t) left) (workingDir : Text) :
    parse workingDir t = .ok { path := ofSegments left } := by
  rw [parse_of_head? ht hn, normalize?_eq_steps,
    (resolve_eq_some_iff isStep_of_mem_steps).2 h]
  rfl

/-- **An absolute text is read as what is left when its double dots are cancelled.**  Of
its pieces only those that count are looked at.  The text is refused just where some
beginning of them has more double dots than other pieces.  Otherwise one can cancel in
any order, goes on as long as a double dot is left, and comes to an end; and what is
left then is the path, which is canonical and, unless it is the root, does not end
with a separator.  Two absolute texts are read as the same place just where the same
is left of both. -/
theorem reading_of_absolute (workingDir t : Text) (ht : t.head? = some separator)
    (hn : .char '\x00' ∉ t) :
    ((∃ cause, parse workingDir t = .error (.invalidArgument cause)) ↔
      ClimbsOut (steps t)) ∧
    (¬ ClimbsOut (steps t) →
      (∃ left, Cancelled (steps t) left) ∧
      (∀ rest, Cancellations (steps t) rest → [.char '.', .char '.'] ∈ rest →
        ∃ next, Cancels rest next) ∧
      WellFounded fun next rest => Cancels rest next) ∧
    (∀ left, Cancelled (steps t) left →
      parse workingDir t = .ok { path := ofSegments left } ∧ Canonical (ofSegments left) ∧
        (ofSegments left ≠ [separator] → (ofSegments left).getLast? ≠ some separator)) ∧
    ∀ workingDir' t', t'.head? = some separator → .char '\x00' ∉ t' → ∀ left left',
      Cancelled (steps t) left → Cancelled (steps t') left' →
        (parse workingDir t = parse workingDir' t' ↔ left = left') := by
  have hp : ∀ x ∈ steps t, IsStep x := isStep_of_mem_steps
  refine ⟨?_, fun hbalance => ?_, fun left h => ⟨?_, ?_, fun hroot => ?_⟩, ?_⟩
  · rw [parse_of_head? ht hn, normalize?_eq_steps, ← resolve_nil_eq_none_iff hp]
    cases resolve [] (steps t) <;> simp
  · obtain ⟨left, h⟩ := (exists_cancelled_iff hp).2 hbalance
    exact ⟨⟨left, h⟩, fun rest => h.exists_cancels hp, wellFounded_cancels⟩
  · exact parse_of_cancelled ht hn h workingDir
  · exact ⟨left, h.segment hp, rfl⟩
  · apply getLast?_ofSegments (h.segment hp)
    rintro rfl
    exact hroot rfl
  · intro workingDir' t' ht' hn' left left' h h'
    rw [parse_of_cancelled ht hn h, parse_of_cancelled ht' hn' h']
    constructor
    · intro he
      have hpath : ofSegments left = ofSegments left' :=
        congrArg NamespacePath.path (Except.ok.inj he)
      exact ofSegments_inj (h.segment hp) (h'.segment isStep_of_mem_steps) hpath
    · rintro rfl
      rfl

/-- A name of three dots is cancelled like any other, and above the root there is nothing
that a double dot could be cancelled with. -/
theorem reading_of_absolute_dots :
    parse "/".text "/a//.../../b/./c/..".text = .ok { path := "/a/b".text } ∧
      ∃ cause, parse "/".text "/a/../..".text = .error (.invalidArgument cause) := by
  constructor
  · obtain ⟨-, -, hread, -⟩ :=
      reading_of_absolute "/".text "/a//.../../b/./c/..".text rfl (by decide)
    have hc : Segment [.char 'c'] := ⟨by decide, by decide, by decide, by decide⟩
    have hdots : Segment [.char '.', .char '.', .char '.'] :=
      ⟨by decide, by decide, by decide, by decide⟩
    have hpieces : steps "/a//.../../b/./c/..".text =
        [[.char 'a'], [.char '.', .char '.', .char '.'], [.char '.', .char '.'], [.char 'b'],
          [.char 'c'], [.char '.', .char '.']] := by
      decide
    -- the last double dot goes first
    have hlast : Cancels (steps "/a//.../../b/./c/..".text)
        [[.char 'a'], [.char '.', .char '.', .char '.'], [.char '.', .char '.'], [.char 'b']] := by
      rw [hpieces]
      exact .pair hc
        [[.char 'a'], [.char '.', .char '.', .char '.'], [.char '.', .char '.'], [.char 'b']] []
    have hfirst : Cancels
        [[.char 'a'], [.char '.', .char '.', .char '.'], [.char '.', .char '.'], [.char 'b']]
        [[.char 'a'], [.char 'b']] :=
      .pair hdots [[.char 'a']] [[.char 'b']]
    exact (hread [[.char 'a'], [.char 'b']] ⟨.head hlast (.single hfirst), by decide⟩).1
  · refine (reading_of_absolute "/".text "/a/../..".text rfl (by decide)).1.2 ?_
    exact ⟨_, List.prefix_refl _, by decide⟩

end NamespacePath

end CodingPolicy
