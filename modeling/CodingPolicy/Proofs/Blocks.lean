/-
CodingPolicy/Proofs/Blocks.lean

Blocks of a log, and the text that they make up.  An event is logged as a line of
JSON, and its block is made from what is read out of that line again.  Where this is the
event itself, the block is made of its heading and the lines of its values
(`Log.Event.block_of_plain`).  So it is for the events that the program logs
(`Log.Event.Regular`): each of them has a block, and no line of a block is empty
(`Log.Event.Regular.block`).

Blocks with an empty line between two that follow one another (`Log.separated`) can be
told apart again.  Written in parts, each as if it were the first, they lack the empty
line between two parts.

Blocks with a surrogate are not written, and what is left of the blocks (`Log.kept`)
is their text just where there are none (`Log.kept_eq_separated_iff`).

Main result: what is left of the parts makes up the whole text just where at most one of
them has any block and no block has a surrogate (`Log.flatMap_kept_iff`).
-/
import CodingPolicy.Log.File
import CodingPolicy.Proofs.RoundTrip
import CodingPolicy.Proofs.Spelling
import Mathlib.Data.List.Basic
import Mathlib.Data.List.Induction

namespace CodingPolicy.Log

/-! ### Texts without empty lines -/

/-- No line of the text is empty. -/
def Solid (block : Text) : Prop :=
  [] ∉ Text.splitOn '\n' block

/-- Lines that are not empty make up a text without empty lines. -/
theorem solid_joinWith {lines : List Text} (hne : lines ≠ [])
    (h : ∀ line ∈ lines, line ≠ [] ∧ .char '\n' ∉ line) :
    Solid (Text.joinWith [.char '\n'] lines) := by
  rw [Solid, Text.splitOn_joinWith hne fun line hline => (h line hline).2]
  exact fun hmem => (h [] hmem).1 rfl

/-! ### The block of an event -/

namespace Event

variable {e : Event} {now : Text}

/-- The block of an event. -/
def block (now : Text) (e : Event) : Except Failure Text :=
  Block.text now { message := e.line, logger := programLog, level := e.level }

/-- An event of the kind that the program logs. -/
structure Regular (e : Event) : Prop where
  /-- The event matters enough to be written. -/
  enabled : Level.info.rank ≤ e.level.rank
  /-- The event is read back from its line. -/
  plain : (Json.object e.members).Plain
  /-- No name of a value breaks the line. -/
  names : ∀ m ∈ e.members, .char '\n' ∉ m.1
  /-- The event has a name on one line. -/
  name : ∃ name, Entries.get? nameKey e.members = some (.string name) ∧ .char '\n' ∉ name

/-- The members are read back from the line. -/
theorem parsed?_line (h : (Json.object e.members).Plain) :
    Block.parsed? e.line = .ok (some e.members) := by
  have hread : Json.read e.line = .ok (.object e.members) := by
    have hnothing : ∀ c ∈ ([] : Text), Json.isBlank c = true := nofun
    have hprint := Json.read_print Json.Layout.blank_compact h hnothing
    rwa [List.append_nil] at hprint
  have hends : e.line.head? = some (.char '\x7b') ∧ e.line.getLast? = some (.char '\x7d') := by
    rw [line, Json.print, Json.printAt]
    cases Json.printMembers Json.Layout.compact 1 e.members with
    | nil => exact ⟨rfl, rfl⟩
    | cons x texts =>
      refine ⟨rfl, ?_⟩
      rw [Json.bracketed_of_ne_nil _ _ _ _ (List.cons_ne_nil x texts), ← List.append_assoc,
        ← List.append_assoc, ← List.cons_append, List.getLast?_concat]
  rw [Block.parsed?, if_pos hends, hread]

end Event

namespace Block

/-- A value that has a line is one of the values. -/
theorem mem_of_mem_ordered {vs : List (Text × Json)} {e : Text × Json} (h : e ∈ ordered vs) :
    e ∈ vs := by
  rcases List.mem_append.1 h with h | h
  · obtain ⟨k, -, hk⟩ := List.mem_filterMap.1 h
    exact (List.mem_filter.1 (List.mem_of_find?_eq_some hk)).1
  · exact (List.mem_filter.1 (List.mem_filter.1 (List.mem_mergeSort.1 h)).1).1

/-- The line of a value is not broken, and not empty. -/
theorem fieldLine {e : Text × Json} (h : .char '\n' ∉ e.1) :
    e.1 ++ said ": " (fieldText e.2) ≠ [] ∧ .char '\n' ∉ e.1 ++ said ": " (fieldText e.2) := by
  refine ⟨by simp [said], ?_⟩
  rw [said, List.mem_append, List.mem_append]
  rintro (hm | hm | hm)
  · exact h hm
  · exact absurd hm (by decide)
  · exact not_mem_fieldText e.2 hm

/-- The heading is not broken, and not empty. -/
theorem heading {name : Text} (h : .char '\n' ∉ name) :
    said "=== " (name ++ " ===".text) ≠ [] ∧ .char '\n' ∉ said "=== " (name ++ " ===".text) := by
  refine ⟨by simp [said], ?_⟩
  rw [said, List.mem_append, List.mem_append]
  rintro (hm | hm | hm)
  · exact absurd hm (by decide)
  · exact h hm
  · exact absurd hm (by decide)

end Block

namespace Event

variable {e : Event}

/-- The values of the entry of an event, in the order in which they come together: those
of the entry itself, and over them those of the event. -/
def entryValues (now : Text) (e : Event) : List (Text × Json) :=
  Entries.merge [("ts_utc".text, .string now), ("level".text, .string e.level.name),
    ("logger".text, .string programLog)] e.members

/-- The lines of the block of an event: a heading with its name, and a line for every value
that is shown. -/
def blockLines (now name : Text) (e : Event) : List Text :=
  said "=== " (name ++ " ===".text) ::
    (Block.ordered (Entries.erase nameKey (e.entryValues now))).map fun m =>
      m.1 ++ said ": " (Block.fieldText m.2)

/-- The block of an event that is read back from its line is made of its lines. -/
theorem block_of_plain {name : Text} (h : (Json.object e.members).Plain)
    (hname : Entries.get? nameKey e.members = some (.string name)) (now : Text) :
    e.block now = .ok (Text.joinWith [.char '\n'] (e.blockLines now name)) := by
  have hnodup : (e.members.map Prod.fst).Nodup := by
    cases h with
    | object _ hd => exact hd
  -- the name of the event comes from the line, over the values of the entry itself
  have hvalue : Entries.get? nameKey (e.entryValues now) = some (.string name) :=
    Entries.get?_merge_of_get? hnodup hname
  have hvalues : Block.values now { message := e.line, logger := programLog, level := e.level } =
      .ok (e.entryValues now) := by
    rw [Block.values, parsed?_line h]
    rfl
  rw [nameKey] at hvalue
  rw [block, Block.text, hvalues, ok_bind, hvalue]
  dsimp only [Block.failureLines]
  rw [List.append_nil]
  rfl

/-- Names that are not broken make up lines that are not broken, and not empty. -/
theorem unbroken_blockLines {name : Text} (hname : .char '\n' ∉ name)
    (hnames : ∀ m ∈ e.members, .char '\n' ∉ m.1) (now : Text) :
    ∀ line ∈ e.blockLines now name, line ≠ [] ∧ .char '\n' ∉ line := by
  intro line hmem
  rcases List.mem_cons.1 hmem with rfl | hmem
  · exact Block.heading hname
  · obtain ⟨m, hm, rfl⟩ := List.mem_map.1 hmem
    refine Block.fieldLine ?_
    have hm := (List.mem_filter.1 (Block.mem_of_mem_ordered hm)).1
    rcases Entries.mem_merge hm with hm | hm
    · have hbase : ∀ k ∈ ["ts_utc".text, "level".text, "logger".text], .char '\n' ∉ k := by decide
      exact hbase m.1 (List.mem_map_of_mem (f := Prod.fst) hm)
    · exact hnames m hm

/-- **A regular event has a block, and no line of it is empty.** -/
theorem Regular.block (h : e.Regular) (now : Text) :
    ∃ block, e.block now = .ok block ∧ Solid block := by
  obtain ⟨name, hname, hline⟩ := h.name
  exact ⟨_, block_of_plain h.plain hname now,
    solid_joinWith (List.cons_ne_nil _ _) (unbroken_blockLines hline h.names now)⟩

section Make

variable {time name : Text} {level : Level} {fields : List (Text × Value)}

/-- The values of an event are its time, its name and its fields. -/
theorem mem_make {m : Text × Json} (h : m ∈ (make time level name fields).members) :
    m = ("ts".text, .string time) ∨ m = (nameKey, .string name) ∨
      ∃ f ∈ fields, m = (f.1, f.2.toJson) := by
  rcases Entries.mem_merge h with h | h
  · simp only [List.mem_cons, List.not_mem_nil, or_false] at h
    exact h.imp_right .inl
  · obtain ⟨f, hf, rfl⟩ := List.mem_map.1 h
    exact .inr (.inr ⟨f, hf, rfl⟩)

/-- An event of plain values is read back from its line. -/
theorem plain_make (h : ∀ f ∈ fields, f.2.toJson.Plain) :
    (Json.object (make time level name fields).members).Plain := by
  refine .object (fun m hm => ?_) (Entries.nodup_merge (by simp))
  rcases mem_make hm with rfl | rfl | ⟨f, hf, rfl⟩
  · exact .string time
  · exact .string name
  · exact h f hf

/-- An event whose name is not among its fields has its name. -/
theorem get?_nameKey_make (h : nameKey ∉ fields.map Prod.fst) :
    Entries.get? nameKey (make time level name fields).members = some (.string name) := by
  rw [make, Entries.get?_merge_of_not_mem (by rwa [List.map_map])]
  rfl

/-- The names of the values of an event are not broken if those of its fields are not. -/
theorem unbroken_make (h : ∀ f ∈ fields, .char '\n' ∉ f.1) :
    ∀ m ∈ (make time level name fields).members, .char '\n' ∉ m.1 := by
  intro m hm
  rcases mem_make hm with rfl | rfl | ⟨f, hf, rfl⟩
  · exact show .char '\n' ∉ "ts".text by decide
  · exact show .char '\n' ∉ nameKey by decide
  · exact h f hf

/-- An event of a name on one line, with plain values under names of the same kind,
is regular. -/
theorem regular_make (hlevel : Level.info.rank ≤ level.rank) (hname : .char '\n' ∉ name)
    (hfields : ∀ f ∈ fields, f.1 ≠ nameKey ∧ .char '\n' ∉ f.1 ∧ f.2.toJson.Plain) :
    (make time level name fields).Regular where
  enabled := hlevel
  plain := plain_make fun f hf => (hfields f hf).2.2
  names := unbroken_make fun f hf => (hfields f hf).2.1
  name := by
    refine ⟨name, get?_nameKey_make fun hmem => ?_, hname⟩
    obtain ⟨f, hf, he⟩ := List.mem_map.1 hmem
    exact (hfields f hf).1 he

end Make

end Event

/-- Events have blocks, none of which has an empty line. -/
structure HaveBlocks (now : Text) (events : List Event) (blocks : List Text) : Prop where
  /-- Every event has its block. -/
  texts : events.map (Event.block now) = blocks.map .ok
  /-- No line of a block is empty. -/
  solid : ∀ block ∈ blocks, Solid block

namespace HaveBlocks

variable {now block : Text} {events : List Event} {blocks other : List Text} {event : Event}

theorem nil (now : Text) : HaveBlocks now [] [] := ⟨rfl, nofun⟩

theorem concat (h : HaveBlocks now events blocks) (hblock : event.block now = .ok block)
    (hsolid : Solid block) : HaveBlocks now (events ++ [event]) (blocks ++ [block]) where
  texts := by
    rw [List.map_append, List.map_append, h.texts, List.map_singleton, hblock]
    rfl
  solid := List.forall_mem_append.2 ⟨h.solid, List.forall_mem_singleton.2 hsolid⟩

/-- There are blocks just where there are events. -/
theorem eq_nil_iff (h : HaveBlocks now events blocks) : blocks = [] ↔ events = [] := by
  rw [← List.map_eq_nil_iff (f := Except.ok (ε := Failure)), ← h.texts, List.map_eq_nil_iff]

/-- Events have no other blocks. -/
theorem unique (h : HaveBlocks now events blocks) (h' : HaveBlocks now events other) :
    blocks = other :=
  (List.map_inj_right fun _ _ => Except.ok.inj).1 (h.texts.symm.trans h'.texts)

end HaveBlocks

/-- The block of an event is written behind an empty line, unless it is the first since
the file was opened. -/
theorem File.append_of_block {file : File} {e : Event} {now block : Text}
    (hlevel : Level.info.rank ≤ e.level.rank) (hblock : e.block now = .ok block) (d : Disk) :
    file.append now e d =
      ({ file with isFresh := false },
        d.appendAt file.location
          (Utf8.encode (entry (if file.isFresh then [] else [.char '\n']) block))) := by
  unfold Event.block at hblock
  have henabled : e.level.isEnabled .info = true := decide_eq_true hlevel
  rw [append, henabled, if_neg (by decide), hblock]

/-! ### Blocks one after the other -/

/-- The text of blocks: each ends its line, and an empty line stands between two that
follow one another. -/
def separated : List Text → Text
  | [] => []
  | block :: blocks => Text.joinWith [.char '\n', .char '\n'] (block :: blocks) ++ [.char '\n']

/-- The text ends with the last block. -/
theorem separated_concat (blocks : List Text) (block : Text) :
    separated (blocks ++ [block]) =
      separated blocks ++
        ((if blocks = [] then [] else [.char '\n']) ++ block ++ [.char '\n']) := by
  cases blocks with
  | nil => rfl
  | cons first blocks =>
    rw [List.cons_append, separated, separated, ← List.cons_append, Text.joinWith_concat]
    simp

theorem separated_cons (block : Text) {blocks : List Text} (h : blocks ≠ []) :
    separated (block :: blocks) = block ++ [.char '\n', .char '\n'] ++ separated blocks := by
  cases blocks with
  | nil => exact absurd rfl h
  | cons next blocks =>
    rw [separated, separated, Text.joinWith_cons_of_ne_nil _ _ h, List.append_assoc]

/-- Between the texts of two parts an empty line is wanting. -/
theorem separated_append {one other : List Text} (hone : one ≠ []) (hother : other ≠ []) :
    separated (one ++ other) = separated one ++ .char '\n' :: separated other := by
  induction one with
  | nil => exact absurd rfl hone
  | cons block one ih =>
    by_cases h : one = []
    · subst h
      rw [List.singleton_append, separated_cons block hother]
      simp [separated, Text.joinWith]
    · rw [List.cons_append, separated_cons block (by simp [h]), ih h, separated_cons block h]
      simp

/-- The parts make up no more than the whole text. -/
theorem length_flatMap_separated_le (parts : List (List Text)) :
    (parts.flatMap separated).length ≤ (separated parts.flatten).length := by
  induction parts with
  | nil => exact Nat.le_refl _
  | cons part parts ih =>
    rw [List.flatMap_cons, List.flatten_cons, List.length_append]
    by_cases hpart : part = []
    · subst hpart
      simpa [separated] using ih
    · by_cases hrest : parts.flatten = []
      · rw [hrest] at ih ⊢
        have hnone : (separated []).length = 0 := rfl
        rw [List.append_nil]
        omega
      · rw [separated_append hpart hrest, List.length_append, List.length_cons]
        omega

/-- **The parts make up the whole text just where at most one of them has any block**:
between two that have, an empty line is wanting. -/
theorem flatMap_separated_iff (parts : List (List Text)) :
    parts.flatMap separated = separated parts.flatten ↔
      (parts.filter (· ≠ [])).length ≤ 1 := by
  induction parts with
  | nil => simp [separated]
  | cons part parts ih =>
    rw [List.flatMap_cons, List.flatten_cons]
    by_cases hpart : part = []
    · subst hpart
      simpa [separated] using ih
    · rw [List.filter_cons_of_pos (by simp [hpart]), List.length_cons]
      have hlength := length_flatMap_separated_le parts
      by_cases hrest : parts.flatten = []
      · -- the other parts have no block, and add nothing
        have hfilter : parts.filter (· ≠ []) = [] := by
          rw [List.filter_eq_nil_iff]
          intro other hother
          simp [List.flatten_eq_nil_iff.1 hrest other hother]
        rw [hrest] at hlength ⊢
        have hnone : parts.flatMap separated = [] :=
          List.eq_nil_of_length_eq_zero (Nat.le_zero.1 hlength)
        rw [hnone, hfilter, List.append_nil, List.append_nil]
        exact iff_of_true rfl (Nat.le_refl 1)
      · -- another part has a block, and the empty line before it is wanting
        obtain ⟨other, hother, hne⟩ : ∃ other ∈ parts, other ≠ [] := by
          simpa [List.flatten_eq_nil_iff] using hrest
        have hpos : 0 < (parts.filter (· ≠ [])).length :=
          List.length_pos_of_mem (List.mem_filter.2 ⟨hother, by simpa using hne⟩)
        refine iff_of_false (fun he => ?_) (by omega)
        rw [separated_append hpart hrest] at he
        have heq := congrArg List.length (List.append_cancel_left he)
        rw [List.length_cons] at heq
        omega

/-! ### Blocks that are written -/

/-- The text that is written for blocks: each that can be written ends its line, and an
empty line stands before it if another block came before, written or not. -/
def kept : List Text → Text
  | [] => []
  | block :: blocks => File.entry [] block ++ blocks.flatMap (File.entry [.char '\n'])

/-- The text goes on with the last block. -/
theorem kept_concat (blocks : List Text) (block : Text) :
    kept (blocks ++ [block]) =
      kept blocks ++ File.entry (if blocks = [] then [] else [.char '\n']) block := by
  cases blocks with
  | nil => simp [kept]
  | cons first blocks => simp [kept]

/-- What is written for a block can be written. -/
theorem writeFault?_entry (lead block : Text) :
    Utf8.writeFault? (File.entry lead block) = none := by
  unfold File.entry
  dsimp only
  split
  · rfl
  · next h => exact Option.not_isSome_iff_eq_none.1 h

theorem writeFault?_kept (blocks : List Text) : Utf8.writeFault? (kept blocks) = none := by
  cases blocks with
  | nil => rfl
  | cons first blocks =>
    rw [kept, Utf8.writeFault?_append_eq_none, Utf8.writeFault?_flatMap_eq_none]
    exact ⟨writeFault?_entry [] first, fun block _ => writeFault?_entry _ block⟩

/-- Blocks that can be written are left as they are. -/
theorem kept_eq_separated {blocks : List Text}
    (h : ∀ block ∈ blocks, Utf8.writeFault? block = none) : kept blocks = separated blocks := by
  induction blocks using List.reverseRecOn with
  | nil => rfl
  | append_singleton blocks block ih =>
    have hblock := h block (List.mem_concat_self)
    have hlead : Utf8.writeFault? (if blocks = [] then [] else [CodePoint.char '\n']) = none := by
      split <;> rfl
    have hentry : Utf8.writeFault?
        ((if blocks = [] then [] else [.char '\n']) ++ block ++ [.char '\n']) = none := by
      rw [Utf8.writeFault?_append_eq_none, Utf8.writeFault?_append_eq_none]
      exact ⟨⟨hlead, hblock⟩, rfl⟩
    rw [kept_concat, separated_concat, ih fun b hb => h b (List.mem_append_left _ hb), File.entry,
      hentry]
    rfl

/-- A block whose text is written can be written. -/
theorem writeFault?_of_separated {blocks : List Text}
    (h : Utf8.writeFault? (separated blocks) = none) :
    ∀ block ∈ blocks, Utf8.writeFault? block = none := by
  intro block hmem
  rw [Utf8.writeFault?_eq_none_iff] at h ⊢
  cases blocks with
  | nil => cases hmem
  | cons first blocks =>
    exact fun c hc => h c (List.mem_append_left _ (Text.mem_joinWith_of_mem hmem hc))

/-- **What is left of the parts makes up the whole text just where at most one of them has
any block, and all blocks can be written.** -/
theorem flatMap_kept_iff (parts : List (List Text)) :
    parts.flatMap kept = separated parts.flatten ↔
      (∀ block ∈ parts.flatten, Utf8.writeFault? block = none) ∧
        (parts.filter (· ≠ [])).length ≤ 1 := by
  have hkept (h : ∀ block ∈ parts.flatten, Utf8.writeFault? block = none) :
      parts.flatMap kept = parts.flatMap separated :=
    List.flatMap_congr fun part hpart =>
      kept_eq_separated fun block hblock => h block (List.mem_flatten_of_mem hpart hblock)
  constructor
  · intro he
    -- the text that is written has no surrogate, so the whole text has none either
    have hnone : Utf8.writeFault? (parts.flatMap kept) = none :=
      Utf8.writeFault?_flatMap_eq_none.2 fun part _ => writeFault?_kept part
    have hall := writeFault?_of_separated (he ▸ hnone)
    exact ⟨hall, (flatMap_separated_iff parts).1 (hkept hall ▸ he)⟩
  · rintro ⟨hall, hone⟩
    rw [hkept hall]
    exact (flatMap_separated_iff parts).2 hone

end CodingPolicy.Log
