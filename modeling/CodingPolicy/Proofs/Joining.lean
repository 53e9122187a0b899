/-
CodingPolicy/Proofs/Joining.lean

Paths that are given in two parts.  A relative text is read behind its working
directory, and what the reading has behind it when it comes to the text is all that
it knows of the directory: the segments that the directory is resolved into
(`NamespacePath.resolve_absolute`).  Separators at the end of the directory do not
count.  So a text that goes on behind a separator can be read in one go, or the first
part can be made the working directory of the second.

Main result: `NamespacePath.reading_in_two_steps`.
-/
import Mathlib.Data.List.Induction
import CodingPolicy.Proofs.Spelling

namespace CodingPolicy

namespace Text

theorem dropTrailing_concat (p : CodePoint → Bool) (t : Text) (c : CodePoint) :
    dropTrailing p (t ++ [c]) = if p c then dropTrailing p t else t ++ [c] := by
  cases hc : p c <;> simp [dropTrailing, hc]

end Text

namespace NamespacePath

variable {workingDir a b t path : Text} {p q : NamespacePath}

/-! ### Behind a working directory -/

/-- Separators at the end of a text do not count. -/
theorem resolve_dropTrailing (t : Text) :
    resolve [] (Text.splitOn separator (Text.dropTrailing (· == separator) t)) =
      resolve [] (Text.splitOn separator t) := by
  induction t using List.reverseRecOn with
  | nil => rfl
  | append_singleton t c ih =>
    rw [Text.dropTrailing_concat]
    split
    · next hc =>
      obtain rfl := beq_iff_eq.1 hc
      rw [ih, Text.splitOn_append_cons, resolve_append]
      -- the empty piece at the end is passed over
      cases resolve [] (Text.splitOn separator t) <;> simp [Text.splitOn, resolve_skip]
    · rfl

/-- **A relative text is resolved behind the segments of its working directory.** -/
theorem resolve_absolute (h : t.head? ≠ some separator) (workingDir : Text) :
    resolve [] (Text.splitOn separator (absolute workingDir t)) =
      (resolve [] (Text.splitOn separator workingDir)).bind fun segments =>
        resolve segments.reverse (Text.splitOn separator t) := by
  rw [absolute, if_neg h, Text.splitOn_append_cons, resolve_append, resolve_dropTrailing]

/-- What goes on behind a text goes on behind the absolute one. -/
theorem absolute_append (ha : a ≠ []) (workingDir b : Text) :
    absolute workingDir (a ++ separator :: b) = absolute workingDir a ++ separator :: b := by
  have hhead : (a ++ separator :: b).head? = a.head? := by
    obtain ⟨c, r, rfl⟩ := List.exists_cons_of_ne_nil ha
    rfl
  unfold absolute
  rw [hhead]
  split
  · rfl
  · rw [List.append_assoc, List.cons_append]

/-- **A text in two parts stands for what the second stands for, seen from the first.** -/
theorem normalize?_absolute_append (ha : a ≠ []) (hb : b.head? ≠ some separator)
    (workingDir : Text) :
    normalize? (absolute workingDir (a ++ separator :: b)) =
      (normalize? (absolute workingDir a)).bind fun path => normalize? (absolute path b) := by
  rw [absolute_append ha, normalize?, normalize?, Text.splitOn_append_cons, resolve_append]
  rcases e : resolve [] (Text.splitOn separator (absolute workingDir a)) with - | segments
  · rfl
  · have hsegments : ∀ x ∈ segments, Segment x :=
      segment_of_resolve e (List.forall_mem_nil _) fun x hx => Text.not_mem_of_mem_splitOn hx
    show (resolve segments.reverse (Text.splitOn separator b)).map ofSegments =
      normalize? (absolute (ofSegments segments) b)
    rw [normalize?, resolve_absolute hb, resolve_ofSegments hsegments]
    rfl

/-! ### In one go, or in two steps -/

/-- A text that is read bare: not empty, without NUL and without the mark of a scheme. -/
structure Bare (t : Text) : Prop where
  /-- The text is not empty. -/
  ne_nil : t ≠ []
  /-- The text does not hold the NUL character. -/
  no_nul : .char '\x00' ∉ t
  /-- No mark of a scheme is anywhere in the text. -/
  no_mark : ¬ schemeMark <:+: t

theorem Bare.looksLikeUri (h : Bare t) : looksLikeUri t = false := by
  unfold NamespacePath.looksLikeUri
  split
  · next before behind hcut =>
    exact absurd ⟨before, behind, (Text.eq_of_cutAt hcut).symm⟩ h.no_mark
  · rfl

theorem Bare.parse_eq_ok (h : Bare t) :
    parse workingDir t = .ok p ↔
      ∃ path, normalize? (absolute workingDir t) = some path ∧ p = { path } := by
  rw [parse_of_not_looksLikeUri h.ne_nil h.no_nul h.looksLikeUri]
  cases normalize? (absolute workingDir t) <;> simp [eq_comm]

/-- A bare text is refused as an invalid argument just where it leads above the root. -/
theorem Bare.refused_iff (h : Bare t) :
    (∃ cause, parse workingDir t = .error (.invalidArgument cause)) ↔
      normalize? (absolute workingDir t) = none := by
  rw [parse_of_not_looksLikeUri h.ne_nil h.no_nul h.looksLikeUri]
  cases normalize? (absolute workingDir t) <;> simp

/-- Both parts of a bare text are bare. -/
theorem Bare.parts (h : Bare (a ++ separator :: b)) (ha : a ≠ []) (hb : b ≠ []) :
    Bare a ∧ Bare b := by
  have hbefore : a <:+: a ++ separator :: b := (List.prefix_append a _).isInfix
  have hbehind : b <:+: a ++ separator :: b := ⟨a ++ [separator], [], by simp⟩
  refine ⟨⟨ha, ?_, ?_⟩, ⟨hb, ?_, ?_⟩⟩
  · exact fun hn => h.no_nul (hbefore.subset hn)
  · exact fun hm => h.no_mark (hm.trans hbefore)
  · exact fun hn => h.no_nul (hbehind.subset hn)
  · exact fun hm => h.no_mark (hm.trans hbehind)

/-- **To read a text that goes on behind a separator is to read its first part, and then
the second from there.**  The whole is bare, and the second part is relative.  The
whole is refused as an invalid argument just where the first part is, or the second
from the place of the first.  Otherwise it stands for the place of the second. -/
theorem reading_in_two_steps (workingDir a b : Text) (h : Bare (a ++ separator :: b))
    (ha : a ≠ []) (hb : b ≠ []) (hrelative : b.head? ≠ some separator) :
    ((∃ cause, parse workingDir (a ++ separator :: b) = .error (.invalidArgument cause)) ↔
      (∃ cause, parse workingDir a = .error (.invalidArgument cause)) ∨
        ∃ q, parse workingDir a = .ok q ∧
          ∃ cause, parse q.path b = .error (.invalidArgument cause)) ∧
    ((¬ ∃ cause, parse workingDir (a ++ separator :: b) = .error (.invalidArgument cause)) →
      ∃ q p, parse workingDir a = .ok q ∧ parse q.path b = .ok p ∧
        parse workingDir (a ++ separator :: b) = .ok p) := by
  obtain ⟨hfirst, hsecond⟩ := h.parts ha hb
  have hjoin := normalize?_absolute_append ha hrelative workingDir
  simp only [h.refused_iff, hfirst.refused_iff, hsecond.refused_iff]
  rcases e : normalize? (absolute workingDir a) with - | path
  · -- the first part leads above the root, and so does the whole
    rw [e] at hjoin
    exact ⟨iff_of_true hjoin (.inl rfl), fun hread => absurd hjoin hread⟩
  · have hq : parse workingDir a = .ok { path } := hfirst.parse_eq_ok.2 ⟨path, e, rfl⟩
    have hwhole : normalize? (absolute workingDir (a ++ separator :: b)) =
        normalize? (absolute path b) := by
      rw [hjoin, e]
      rfl
    rw [hwhole]
    constructor
    · constructor
      · intro hnone
        exact .inr ⟨_, hq, hnone⟩
      · rintro (hnone | ⟨q, hq', hnone⟩)
        · cases hnone
        · cases hq.symm.trans hq'
          exact hnone
    · intro hread
      obtain ⟨below, hbelow⟩ := Option.ne_none_iff_exists'.1 hread
      exact ⟨_, _, hq, hsecond.parse_eq_ok.2 ⟨below, hbelow, rfl⟩,
        h.parse_eq_ok.2 ⟨below, hwhole.trans hbelow, rfl⟩⟩

/-- From a working directory with separators at its end, a path with a double dot in each
part is read in both ways, and one that leads above the root in neither. -/
theorem reading_in_two_steps_dots :
    (∃ q p, parse "/w//".text "x/../y/".text = .ok q ∧
        parse q.path "../z".text = .ok p ∧
        parse "/w//".text "x/../y//../z".text = .ok p) ∧
      ∃ cause, parse "/w//".text "../x/../..".text = .error (.invalidArgument cause) := by
  have hcolon : ∀ {t : Text}, .char ':' ∉ t → ¬ schemeMark <:+: t :=
    fun ht hm => ht (hm.subset (.head _))
  constructor
  · have hbare : Bare "x/../y//../z".text := ⟨by decide, by decide, hcolon (by decide)⟩
    have hread := reading_in_two_steps "/w//".text "x/../y/".text "../z".text hbare
      (by decide) (by decide) (by decide)
    apply hread.2
    rintro ⟨cause, hcause⟩
    cases hcause
  · have hbare : Bare "../x/../..".text := ⟨by decide, by decide, hcolon (by decide)⟩
    have hread := reading_in_two_steps "/w//".text "../x".text "../..".text hbare
      (by decide) (by decide) (by decide)
    exact hread.1.2 (.inr ⟨{ path := "/x".text }, rfl, _, rfl⟩)

end NamespacePath

end CodingPolicy
