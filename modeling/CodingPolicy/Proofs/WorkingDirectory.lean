/-
CodingPolicy/Proofs/WorkingDirectory.lean

What a working directory is good for.  A text that only leads down
(`NamespacePath.Relative`) is read behind the segments that are left of the directory,
and its own steps are added to them; this is all that its reading takes from the
directory (`NamespacePath.Relative.normalize?_absolute`).  A directory is usable
(`NamespacePath.Usable`) if it has a path, and every such text is read as a path below
it, without the NUL character.

The check of a setting asks for nothing but a separator in front, while the reading of a
path also asks that it does not lead above the root and does not hold the NUL character.
From `/..` no relative text can be read at all, and from a directory with NUL the
character comes into every path, though no text that is read may hold it.

Main result: of the directories that are accepted just those are usable that can be
read as paths themselves (`Config.usable_iff_of_accepted`).
-/
import CodingPolicy.Proofs.Cancellation
import CodingPolicy.Proofs.Joining
import CodingPolicy.Proofs.Precedence

namespace CodingPolicy

namespace NamespacePath

variable {c : CodePoint} {t dir workingDir : Text} {segments left : List Text}

/-- In a path stands what stands in its segments, apart from the separators. -/
theorem mem_ofSegments_iff (hc : c ≠ separator) :
    c ∈ ofSegments segments ↔ ∃ x ∈ segments, c ∈ x := by
  rw [ofSegments, List.mem_cons, or_iff_right hc]
  constructor
  · intro h
    rcases Text.mem_joinWith h with h | h
    · exact absurd (List.mem_singleton.1 h) hc
    · exact h
  · rintro ⟨x, hx, h⟩
    induction segments with
    | nil => cases hx
    | cons y segments ih =>
      cases segments with
      | nil =>
        rw [List.mem_singleton.1 hx] at h
        exact h
      | cons z segments =>
        rw [Text.joinWith, List.mem_append, List.mem_append]
        rcases List.mem_cons.1 hx with rfl | hx
        · exact .inl (.inl h)
        · exact .inr (ih hx)

/-! ### Texts that lead down -/

/-- A text that is seen from a working directory and only leads down: it is bare, does not
start with a separator, and has no double dot among its pieces. -/
structure Relative (t : Text) : Prop extends Bare t where
  /-- The text does not start with a separator. -/
  head? : t.head? ≠ some separator
  /-- No piece of the text leads up. -/
  no_dots : [.char '.', .char '.'] ∉ Text.splitOn separator t

/-- A segment without a colon and without NUL is such a text. -/
theorem relative_of_segment {x : Text} (hx : Segment x) (hn : .char '\x00' ∉ x)
    (hc : .char ':' ∉ x) : Relative x where
  ne_nil := hx.ne_nil
  no_nul := hn
  no_mark := fun hm => hc (hm.subset (.head _))
  head? := fun he => hx.no_separator (List.mem_of_mem_head? he)
  no_dots := by
    rw [Text.splitOn_of_not_mem hx.no_separator, List.mem_singleton]
    exact Ne.symm hx.ne_dots

namespace Relative

/-- The pieces of such a text that count are segments. -/
theorem segment (h : Relative t) : ∀ x ∈ steps t, Segment x := by
  intro x hx
  rcases isStep_of_mem_steps x hx with hs | rfl
  · exact hs
  · exact absurd (List.mem_filter.1 hx).1 h.no_dots

/-- The pieces of such a text do not hold the NUL character. -/
theorem no_nul_steps (h : Relative t) : ∀ x ∈ steps t, .char '\x00' ∉ x := fun _ hx hn =>
  h.no_nul (Text.mem_of_mem_splitOn (List.mem_filter.1 hx).1 hn)

/-- **Such a text stands for its steps behind what is left of its working directory.** -/
theorem normalize?_absolute (h : Relative t) (workingDir : Text) :
    normalize? (absolute workingDir t) =
      (resolve [] (steps workingDir)).map fun left => ofSegments (left ++ steps t) := by
  have hcounts (behind : List Text) (s : Text) :
      resolve behind (Text.splitOn separator s) = resolve behind (steps s) :=
    (resolve_filter behind _).symm
  rw [normalize?, resolve_absolute h.head?, hcounts]
  cases resolve [] (steps workingDir) with
  | none => rfl
  | some left =>
    rw [Option.bind_some, hcounts, resolve_of_segments h.segment, List.reverse_reverse]
    rfl

/-- From a directory that climbs out nothing can be read. -/
theorem parse_of_climbsOut (h : Relative t) (hdir : ClimbsOut (steps workingDir)) :
    parse workingDir t = .error (.invalidArgument (.aboveRoot t)) := by
  rw [parse_of_not_looksLikeUri h.ne_nil h.no_nul h.looksLikeUri, h.normalize?_absolute,
    (resolve_nil_eq_none_iff isStep_of_mem_steps).2 hdir]
  rfl

/-- From any other directory the steps go on behind what is left of it. -/
theorem parse_of_cancelled (h : Relative t) (hdir : Cancelled (steps workingDir) left) :
    parse workingDir t = .ok { path := ofSegments (left ++ steps t) } := by
  rw [parse_of_not_looksLikeUri h.ne_nil h.no_nul h.looksLikeUri, h.normalize?_absolute,
    (resolve_eq_some_iff isStep_of_mem_steps).2 hdir]
  rfl

/-- The path holds the NUL character just where the directory brings it in. -/
theorem nul_mem_path_iff (h : Relative t) :
    .char '\x00' ∈ ofSegments (left ++ steps t) ↔ ∃ x ∈ left, .char '\x00' ∈ x := by
  rw [mem_ofSegments_iff (by decide)]
  constructor
  · rintro ⟨x, hx, hn⟩
    rcases List.mem_append.1 hx with hx | hx
    · exact ⟨x, hx, hn⟩
    · exact absurd hn (h.no_nul_steps x hx)
  · rintro ⟨x, hx, hn⟩
    exact ⟨x, List.mem_append_left _ hx, hn⟩

end Relative

/-! ### Usable directories -/

/-- The directory is usable: it has a path, and every text that leads down is read from it
as a path without the NUL character, in which the steps of the text follow the segments of
the directory. -/
def Usable (dir : Text) : Prop :=
  ∀ t, Relative t → ∃ left, (∀ x ∈ left, Segment x) ∧
    parse [separator] dir = .ok { path := ofSegments left } ∧
    parse dir t = .ok { path := ofSegments (left ++ steps t) } ∧
    .char '\x00' ∉ ofSegments (left ++ steps t)

/-- An absolute text is read just where it does not climb out and does not hold the NUL
character. -/
theorem exists_parse_iff (hdir : dir.head? = some separator) :
    (∃ q, parse workingDir dir = .ok q) ↔ ¬ ClimbsOut (steps dir) ∧ .char '\x00' ∉ dir := by
  constructor
  · rintro ⟨q, hq⟩
    have hn := (parse_eq_ok hq).1
    refine ⟨fun hclimbs => ?_, hn⟩
    rw [parse_of_head? hdir hn, normalize?_eq_steps,
      (resolve_nil_eq_none_iff isStep_of_mem_steps).2 hclimbs] at hq
    cases hq
  · rintro ⟨hbalance, hn⟩
    obtain ⟨left, hleft⟩ := (exists_cancelled_iff isStep_of_mem_steps).2 hbalance
    exact ⟨_, NamespacePath.parse_of_cancelled hdir hn hleft workingDir⟩

/-- **An absolute text is usable as a directory just where it can be read as a path.** -/
theorem usable_iff (hdir : dir.head? = some separator) :
    Usable dir ↔ ∃ q, parse [separator] dir = .ok q := by
  constructor
  · intro h
    have ha : Relative [.char 'a'] :=
      relative_of_segment ⟨by decide, by decide, by decide, by decide⟩ (by decide) (by decide)
    obtain ⟨left, -, hread, -⟩ := h [.char 'a'] ha
    exact ⟨_, hread⟩
  · intro hread t ht
    obtain ⟨hbalance, hn⟩ := (exists_parse_iff hdir).1 hread
    obtain ⟨left, hleft⟩ := (exists_cancelled_iff isStep_of_mem_steps).2 hbalance
    refine ⟨left, hleft.segment isStep_of_mem_steps,
      NamespacePath.parse_of_cancelled hdir hn hleft _, ht.parse_of_cancelled hleft, ?_⟩
    rw [ht.nul_mem_path_iff]
    rintro ⟨x, hx, hnul⟩
    -- what is left of the directory was one of its pieces
    have hresolved := (resolve_eq_some_iff isStep_of_mem_steps).2 hleft
    rcases mem_of_resolve hresolved hx with hx | hx
    · cases hx
    · exact hn (Text.mem_of_mem_splitOn (List.mem_filter.1 hx).1 hnul)

end NamespacePath

namespace Config

open NamespacePath (Relative Usable ClimbsOut Cancelled steps ofSegments parse separator)

variable {homes : Homes} {t dir : Text} {value : Json} {config : Config}

theorem checkWorkingDir_eq_ok :
    checkWorkingDir t = .ok dir ↔ t = dir ∧ dir.head? = some separator := by
  unfold checkWorkingDir
  split
  · next h =>
    constructor
    · intro he
      cases he
      exact ⟨rfl, h⟩
    · rintro ⟨rfl, -⟩
      rfl
  · next h =>
    constructor
    · intro he
      cases he
    · rintro ⟨rfl, he⟩
      exact absurd he h

/-- What the check of a working directory asks for. -/
theorem head?_workingDir (h : ofJson homes value = .ok config) :
    config.workingDir.head? = some separator := by
  cases value with
  | object members =>
    obtain ⟨t, -, ht⟩ := (ofMembers_eq_ok.1 h).1.workingDir
    exact (checkWorkingDir_eq_ok.1 ht).2
  | _ => cases h

/-- **An accepted working directory is usable just where it can be read as a path**, that
is, where it neither leads above the root nor holds the NUL character.  From a directory
that leads above the root every text that leads down is refused for the same reason, and
from any other it is read below what is left of the directory, with the NUL characters
that are left of it. -/
theorem usable_iff_of_accepted (h : ofJson homes value = .ok config) :
    (Usable config.workingDir ↔ ∃ q, parse [separator] config.workingDir = .ok q) ∧
    ((∃ q, parse [separator] config.workingDir = .ok q) ↔
      ¬ ClimbsOut (steps config.workingDir) ∧ .char '\x00' ∉ config.workingDir) ∧
    ∀ t, Relative t →
      (ClimbsOut (steps config.workingDir) →
        parse config.workingDir t = .error (.invalidArgument (.aboveRoot t))) ∧
      ∀ left, Cancelled (steps config.workingDir) left →
        parse config.workingDir t = .ok { path := ofSegments (left ++ steps t) } ∧
          (.char '\x00' ∈ ofSegments (left ++ steps t) ↔ ∃ x ∈ left, .char '\x00' ∈ x) := by
  have hdir := head?_workingDir h
  refine ⟨NamespacePath.usable_iff hdir, NamespacePath.exists_parse_iff hdir, fun t ht => ?_⟩
  exact ⟨ht.parse_of_climbsOut, fun left hleft =>
    ⟨ht.parse_of_cancelled hleft, ht.nul_mem_path_iff⟩⟩

/-- A directory with a double dot that does not lead above the root is usable. -/
theorem usable_iff_of_accepted_dots :
    ∃ config, ofJson "/h".text (.object [("working_dir".text, .string "/a/../b/".text)]) =
        .ok config ∧ config.workingDir = "/a/../b/".text ∧ Usable config.workingDir ∧
      parse config.workingDir "c/.//d".text = .ok { path := "/b/c/d".text } := by
  have hmade : ofJson "/h".text
      (.object [("working_dir".text, .string "/a/../b/".text)]) = .ok _ := rfl
  exact ⟨_, hmade, rfl, (usable_iff_of_accepted hmade).1.2 ⟨_, rfl⟩, rfl⟩

/-- Not every accepted directory is usable. -/
theorem not_always_usable :
    ¬ ∀ homes value config, ofJson homes value = .ok config → Usable config.workingDir := by
  intro h
  have husable := h "/h".text
    (.object [("working_dir".text, .string "/..".text)]) _ rfl
  have ha : Relative [.char 'a'] := NamespacePath.relative_of_segment
    ⟨by decide, by decide, by decide, by decide⟩ (by decide) (by decide)
  -- from a directory above the root nothing is read
  obtain ⟨left, -, -, hread, -⟩ := husable [.char 'a'] ha
  cases hread

end Config

end CodingPolicy
