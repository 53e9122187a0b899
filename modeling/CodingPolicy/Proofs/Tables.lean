/-
CodingPolicy/Proofs/Tables.lean

A table of names and descriptions is as wide as it was asked to be, loses nothing of a
description but white space, and keeps its two columns.

The lines of the table are those of its rows one after the other, so all that is said of a
table is said of one row first (`group_rowLines`, `length_le_of_mem_rowLines`).  A further line
of a row is the indentation and then a line of the wrapped description, and it starts with just
the indentation if that line does not start with a space.  This is so for descriptions in which
no white space at which a line cannot end, such as a no-break space or one of the separators
U+001C to U+001F, stands right before white space at which it can (`OpenlySpaced`); otherwise it
need not be (`not_always_aligned`).

Main result: `render_in_columns`.
-/
import CodingPolicy.Proofs.Spelling
import CodingPolicy.Proofs.Wrapping

namespace CodingPolicy.Text

open Wrap

namespace Table

variable {names texts indent : Nat} {width : Int} {row : Text × Text} {rows : List (Text × Text)}
variable {t line part : Text} {group : List Text}

/-! ### The widths of the columns -/

theorem le_foldl_max (rows : List (Text × Text)) (w : Nat) :
    w ≤ rows.foldl (fun w row => max w row.1.length) w ∧
      ∀ row ∈ rows, row.1.length ≤ rows.foldl (fun w row => max w row.1.length) w := by
  induction rows generalizing w with
  | nil => exact ⟨Nat.le_refl w, nofun⟩
  | cons row rows ih =>
    obtain ⟨hstart, hall⟩ := ih (max w row.1.length)
    exact ⟨(Nat.le_max_left ..).trans hstart,
      List.forall_mem_cons.2 ⟨(Nat.le_max_right ..).trans hstart, hall⟩⟩

theorem foldl_max_cases (rows : List (Text × Text)) (w : Nat) :
    rows.foldl (fun w row => max w row.1.length) w = w ∨
      ∃ row ∈ rows, row.1.length = rows.foldl (fun w row => max w row.1.length) w := by
  induction rows generalizing w with
  | nil => exact .inl rfl
  | cons row rows ih =>
    rw [List.foldl_cons]
    rcases ih (max w row.1.length) with he | ⟨r, hr, he⟩
    · rw [he]
      rcases Nat.le_total row.1.length w with h | h
      · exact .inl (Nat.max_eq_left h)
      · exact .inr ⟨row, .head _, (Nat.max_eq_right h).symm⟩
    · exact .inr ⟨r, .tail _ hr, he⟩

theorem length_le_nameWidth (h : row ∈ rows) : row.1.length ≤ nameWidth rows :=
  (le_foldl_max rows 0).2 row h

/-- The name column is no wider than the longest name. -/
theorem exists_length_eq_nameWidth (hne : rows ≠ []) :
    ∃ row ∈ rows, row.1.length = nameWidth rows := by
  rcases foldl_max_cases rows 0 with he | h
  · obtain ⟨row, rows, rfl⟩ := List.exists_cons_of_ne_nil hne
    refine ⟨row, .head _, Nat.le_antisymm (length_le_nameWidth (.head _)) ?_⟩
    exact (Nat.le_of_eq he).trans (Nat.zero_le _)
  · exact h

theorem textWidth_pos (width : Int) (indent : Nat) : 0 < textWidth width indent := by
  unfold textWidth leastTextWidth
  omega

/-- A table that is not too narrow has the width of its two columns. -/
theorem add_textWidth (h : (indent + leastTextWidth : Nat) ≤ width) :
    ((indent + textWidth width indent : Nat) : Int) = width := by
  unfold textWidth
  omega

/-! ### The parts of a description -/

theorem parts_cases (texts : Nat) (t : Text) :
    wrap texts t = [] ∧ parts texts t = [[]] ∨
      wrap texts t ≠ [] ∧ parts texts t = wrap texts t := by
  unfold parts
  split
  · next h => exact .inl ⟨h, rfl⟩
  · next h => exact .inr ⟨h, rfl⟩

theorem parts_ne_nil (texts : Nat) (t : Text) : parts texts t ≠ [] := by
  rcases parts_cases texts t with ⟨-, he⟩ | ⟨h, he⟩
  · rw [he]
    exact List.cons_ne_nil _ _
  · rwa [he]

theorem mem_parts (h : part ∈ parts texts t) : part = [] ∨ part ∈ wrap texts t := by
  rcases parts_cases texts t with ⟨-, he⟩ | ⟨-, he⟩
  · rw [he] at h
    exact .inl (List.mem_singleton.1 h)
  · rw [he] at h
    exact .inr h

theorem tail_parts (texts : Nat) (t : Text) : (parts texts t).tail = (wrap texts t).tail := by
  rcases parts_cases texts t with ⟨h, he⟩ | ⟨-, he⟩
  · rw [he, h]
    rfl
  · rw [he]

theorem ink_parts (htexts : 0 < texts) (t : Text) : ink (parts texts t).flatten = ink t := by
  rw [← ink_wrap htexts t]
  rcases parts_cases texts t with ⟨h, he⟩ | ⟨-, he⟩
  · rw [he, h]
    rfl
  · rw [he]

theorem length_le_of_mem_parts (htexts : 0 < texts) (h : part ∈ parts texts t) :
    part.length ≤ texts := by
  rcases mem_parts h with rfl | h
  · exact Nat.zero_le _
  · exact length_le_of_mem_wrap htexts h

theorem newline_not_mem_parts (htexts : 0 < texts) (h : part ∈ parts texts t) :
    .char '\n' ∉ part := by
  rcases mem_parts h with rfl | h
  · exact nofun
  · exact newline_not_mem_wrap htexts h

/-! ### The lines of a row -/

/-- The indentation of the description column behind names of the given width. -/
def indentation (names : Nat) : Text :=
  List.replicate (names + gap.length) (.char ' ')

/-- The lines of a row in a table: the name, filled up, then the gap and the first part of the
description, without white space at the end, and the other parts below, behind the
indentation. -/
structure Group (names texts : Nat) (row : Text × Text) (group : List Text) : Prop where
  /-- Each part of the description stands on a line of its own. -/
  lines : ∃ first rest, parts texts row.2 = first :: rest ∧
    group = trimEnd (padRight names row.1 ++ gap ++ first) :: rest.map (indentation names ++ ·)
  /-- The parts show all of the description that is not white space, in its order. -/
  shown : ink (parts texts row.2).flatten = ink row.2

/-- The further lines start with just the indentation. -/
def Aligned (names : Nat) (group : List Text) : Prop :=
  ∀ line ∈ group.tail, line.takeWhile (· == .char ' ') = indentation names

theorem rowLines_eq (names texts : Nat) (row : Text × Text) :
    ∃ first rest, parts texts row.2 = first :: rest ∧ rowLines names texts row =
      trimEnd (padRight names row.1 ++ gap ++ first) :: rest.map (indentation names ++ ·) := by
  obtain ⟨first, rest, he⟩ := List.exists_cons_of_ne_nil (parts_ne_nil texts row.2)
  refine ⟨first, rest, he, ?_⟩
  rw [rowLines, he]
  rfl

theorem group_rowLines (htexts : 0 < texts) (names : Nat) (row : Text × Text) :
    Group names texts row (rowLines names texts row) :=
  ⟨rowLines_eq names texts row, ink_parts htexts row.2⟩

/-- What is on a line of a row: the name, the spaces beside it and a part of the description. -/
theorem mem_rowLines (h : line ∈ rowLines names texts row) :
    ∃ part ∈ parts texts row.2,
      line = trimEnd (padRight names row.1 ++ gap ++ part) ∨ line = indentation names ++ part := by
  obtain ⟨first, rest, he, hlines⟩ := rowLines_eq names texts row
  rw [hlines] at h
  rw [he]
  rcases List.mem_cons.1 h with rfl | h
  · exact ⟨first, .head _, .inl rfl⟩
  · obtain ⟨part, hpart, rfl⟩ := List.mem_map.1 h
    exact ⟨part, .tail _ hpart, .inr rfl⟩

/-- **No line of a row is longer than both columns.** -/
theorem length_le_of_mem_rowLines (htexts : 0 < texts) (hname : row.1.length ≤ names)
    (h : line ∈ rowLines names texts row) : line.length ≤ names + gap.length + texts := by
  obtain ⟨part, hpart, hline⟩ := mem_rowLines h
  have hle : part.length ≤ texts := length_le_of_mem_parts htexts hpart
  rcases hline with rfl | rfl
  · refine (length_dropTrailing_le isBlank _).trans ?_
    rw [List.length_append, List.length_append, length_padRight hname]
    omega
  · rw [List.length_append, indentation, List.length_replicate]
    omega

theorem newline_not_mem_rowLines (htexts : 0 < texts) (hname : .char '\n' ∉ row.1)
    (h : line ∈ rowLines names texts row) : .char '\n' ∉ line := by
  intro hmem
  obtain ⟨part, hpart, hline⟩ := mem_rowLines h
  have hnot : .char '\n' ∉ part := newline_not_mem_parts htexts hpart
  rcases hline with rfl | rfl
  · rcases List.mem_append.1 (mem_of_mem_dropTrailing hmem) with hfront | hin
    · rcases List.mem_append.1 hfront with hin | hin
      · exact hname (mem_of_mem_padRight (by decide) hin)
      · exact absurd hin (by decide)
    · exact hnot hin
  · rcases List.mem_append.1 hmem with hin | hin
    · cases List.eq_of_mem_replicate hin
    · exact hnot hin

/-- A part that does not start with a space stands behind just the indentation. -/
theorem takeWhile_indentation_append (names : Nat) (h : part.head? ≠ some (.char ' ')) :
    (indentation names ++ part).takeWhile (· == .char ' ') = indentation names := by
  have hstop : part.takeWhile (· == .char ' ') = [] := by
    cases part with
    | nil => rfl
    | cons c r =>
      refine List.takeWhile_cons_of_neg fun hc => h ?_
      rw [eq_of_beq hc]
      rfl
  rw [List.takeWhile_append_of_pos, hstop, List.append_nil]
  intro c hc
  rw [List.eq_of_mem_replicate hc]
  rfl

/-- **The lines of a row are aligned where no other white space stands right before ASCII white
space.** -/
theorem aligned_rowLines (htexts : 0 < texts) (names : Nat) (h : OpenlySpaced row.2) :
    Aligned names (rowLines names texts row) := by
  obtain ⟨first, rest, he, hlines⟩ := rowLines_eq names texts row
  have htail : (wrap texts row.2).tail = rest := by
    rw [← tail_parts, he]
    rfl
  intro line hline
  rw [hlines] at hline
  obtain ⟨part, hpart, rfl⟩ := List.mem_map.1 hline
  rw [← htail] at hpart
  exact takeWhile_indentation_append names (head?_ne_of_mem_wrap_tail htexts h hpart)

/-! ### The table -/

theorem flatMap_rowLines_ne_nil (hne : rows ≠ []) (names texts : Nat) :
    rows.flatMap (rowLines names texts) ≠ [] := by
  obtain ⟨row, rows, rfl⟩ := List.exists_cons_of_ne_nil hne
  obtain ⟨first, rest, -, hlines⟩ := rowLines_eq names texts row
  rw [List.flatMap_cons, hlines]
  exact List.cons_ne_nil _ _

/-- The lines of a table are those of its rows. -/
theorem splitOn_render (hne : rows ≠ []) (hnames : ∀ row ∈ rows, .char '\n' ∉ row.1) (width : Int) :
    splitOn '\n' (render rows width) =
      rows.flatMap (rowLines (nameWidth rows) (textWidth width (nameWidth rows + gap.length))) := by
  refine splitOn_joinWith (flatMap_rowLines_ne_nil hne _ _) fun line hline => ?_
  obtain ⟨row, hrow, hline⟩ := List.mem_flatMap.1 hline
  exact newline_not_mem_rowLines (textWidth_pos _ _) (hnames row hrow) hline

/-- **No line of a table is longer than asked for**, if the table is to be at least 22 characters
wider than its names. -/
theorem length_le_of_mem_splitOn_render (hne : rows ≠ [])
    (hnames : ∀ row ∈ rows, .char '\n' ∉ row.1)
    (hwidth : ∀ row ∈ rows, (row.1.length : Int) + 22 ≤ width)
    (h : line ∈ splitOn '\n' (render rows width)) : (line.length : Int) ≤ width := by
  obtain ⟨longest, hlongest, hattained⟩ := exists_length_eq_nameWidth hne
  -- the longest name leaves the description column its least width
  have hroom : ((nameWidth rows + gap.length + leastTextWidth : Nat) : Int) ≤ width := by
    rw [← hattained]
    exact hwidth longest hlongest
  rw [splitOn_render hne hnames] at h
  obtain ⟨row, hrow, hline⟩ := List.mem_flatMap.1 h
  have hle := length_le_of_mem_rowLines (textWidth_pos _ _) (length_le_nameWidth hrow) hline
  calc (line.length : Int)
      ≤ (nameWidth rows + gap.length + textWidth width (nameWidth rows + gap.length) : Nat) :=
        Int.ofNat_le.2 hle
    _ = width := add_textWidth hroom

/-- The lines of a table in two columns: one group of lines for each row, in the order of the
rows, behind a name column of one width. -/
structure Columns (width : Int) (rows : List (Text × Text)) (names : Nat)
    (groups : List (List Text)) : Prop where
  /-- The name column holds every name. -/
  holds : ∀ row ∈ rows, row.1.length ≤ names
  /-- It is no wider than the longest name. -/
  tight : ∃ row ∈ rows, row.1.length = names
  /-- The groups make up the table. -/
  lines : splitOn '\n' (render rows width) = groups.flatten
  /-- Each group is that of its row. -/
  grouped : List.Forall₂ (Group names (textWidth width (names + gap.length))) rows groups

theorem columns_render (hne : rows ≠ []) (hnames : ∀ row ∈ rows, .char '\n' ∉ row.1) (width : Int) :
    Columns width rows (nameWidth rows)
      (rows.map (rowLines (nameWidth rows) (textWidth width (nameWidth rows + gap.length)))) where
  holds _ hrow := length_le_nameWidth hrow
  tight := exists_length_eq_nameWidth hne
  lines := by rw [splitOn_render hne hnames, List.flatMap_def]
  grouped := List.forall₂_map_right_iff.2
    (List.forall₂_same.2 fun row _ => group_rowLines (textWidth_pos _ _) _ row)

/-- **A table fits, keeps its columns and loses no text.**  Where it is to be at least 22
characters wider than its names, no line is longer than asked for, and the lines fall into one
group for each row, which shows all of its description.  A group is aligned unless its
description has other white space right before ASCII white space. -/
theorem render_in_columns (hne : rows ≠ []) (hnames : ∀ row ∈ rows, .char '\n' ∉ row.1)
    (hwidth : ∀ row ∈ rows, (row.1.length : Int) + 22 ≤ width) :
    (∀ line ∈ splitOn '\n' (render rows width), (line.length : Int) ≤ width) ∧
      ∃ names groups, Columns width rows names groups ∧
        List.Forall₂ (fun row group => OpenlySpaced row.2 → Aligned names group) rows groups := by
  refine ⟨fun line hline => length_le_of_mem_splitOn_render hne hnames hwidth hline,
    nameWidth rows, _, columns_render hne hnames width, ?_⟩
  refine List.forall₂_map_right_iff.2 (List.forall₂_same.2 fun row _ hspaced => ?_)
  exact aligned_rowLines (textWidth_pos _ _) _ hspaced

/-- A table of two rows, the one with a description of two lines and the other with none. -/
theorem render_in_columns_two_rows :
    let rows := [("-p".text, "one two three four five six".text), ("-all".text, [])]
    (∀ row ∈ rows, OpenlySpaced row.2) ∧
      (∀ line ∈ splitOn '\n' (render rows 26), (line.length : Int) ≤ 26) ∧
      ∃ names groups, Columns 26 rows names groups ∧ names = 4 ∧
        ∀ group ∈ groups, Aligned names group := by
  intro rows
  have hspaced : ∀ row ∈ rows, OpenlySpaced row.2 := by
    unfold OpenlySpaced
    decide
  obtain ⟨hfits, names, groups, hcolumns, haligned⟩ :=
    @render_in_columns 26 rows (by decide) (by decide) (by decide)
  refine ⟨hspaced, hfits, names, groups, hcolumns, ?_, ?_⟩
  · have hall : 4 ≤ names := hcolumns.holds _ (.tail _ (.head _))
    obtain ⟨row, hrow, hattained⟩ := hcolumns.tight
    have hnone : row.1.length ≤ 4 := (by decide : ∀ row ∈ rows, row.1.length ≤ 4) row hrow
    omega
  · subst rows
    obtain - | ⟨hfirst, - | ⟨hsecond, - | -⟩⟩ := haligned
    exact List.forall_mem_cons.2 ⟨hfirst (hspaced _ (.head _)),
      List.forall_mem_singleton.2 (hsecond (hspaced _ (.tail _ (.head _))))⟩

/-- Behind a no-break space the second line of a description starts with a space more than the
indentation. -/
theorem not_always_aligned :
    ¬ ∀ (rows : List (Text × Text)) (width : Int), rows ≠ [] → (∀ row ∈ rows, .char '\n' ∉ row.1) →
      (∀ row ∈ rows, (row.1.length : Int) + 22 ≤ width) →
      (∀ line ∈ splitOn '\n' (render rows width), (line.length : Int) ≤ width) ∧
        ∃ names groups, Columns width rows names groups ∧
          ∀ group ∈ groups, Aligned names group := by
  intro h
  obtain ⟨-, names, groups, hcolumns, haligned⟩ :=
    h [("n".text, "aaaaaaaaaaaaaaaaaaa \u00a0 b".text)] 23 (by decide) (by decide) (by decide)
  have hlines : splitOn '\n' (render [("n".text, "aaaaaaaaaaaaaaaaaaa \u00a0 b".text)] 23) =
      ["n  aaaaaaaaaaaaaaaaaaa".text, "    b".text] := by decide +kernel
  obtain ⟨row, hrow, rfl⟩ := hcolumns.tight
  cases List.mem_singleton.1 hrow
  -- the one row has one group, which is all of the table
  obtain ⟨group, hgroup⟩ := List.length_eq_one_iff.1 hcolumns.grouped.length_eq.symm
  have hall := hcolumns.lines
  rw [hlines, hgroup, List.flatten_singleton] at hall
  subst hgroup hall
  have hindented := haligned _ (.head _) "    b".text (.head _)
  exact absurd hindented (by decide)

end Table

end CodingPolicy.Text
