/-
CodingPolicy/Proofs/EventLines.lean

The lines that an event has on the log.  On the way from a value to its line the value
becomes JSON, is printed, read again and shown; nothing of it is lost if it is made of
texts, truth values and whole numbers in lists and in maps of texts
(`Log.Value.Loggable`): its JSON form is read back from its text, and is shown as the
value itself (`Log.Value.Loggable.display_toJson`).

The lines come in the order of their keys (`Log.LineOrder`), and no value that is shown is
without its line (`Log.Block.mem_ordered_iff`).

Main result: an event has its heading and a line for each of its values, and no other line
(`Log.Event.lines_of_make?`); so no value can bring a line of its own into the log.
-/
import Mathlib.Data.List.Forall2
import CodingPolicy.Proofs.Blocks

namespace CodingPolicy

/-! ### Alphabetical order -/

namespace Text

variable {a b c : Text}

/-- The text stands before the other in ascending order: it is a beginning of it, or the
first character in which they differ is the one with the lower number. -/
def Before : Text → Text → Prop :=
  List.Lex fun x y => x.toNat < y.toNat

theorem Before.ne (h : Before a b) : a ≠ b := by
  induction h with
  | nil => exact (List.cons_ne_nil _ _).symm
  | cons _ ih => exact fun he => ih (List.cons.inj he).2
  | rel hlt =>
    intro he
    cases (List.cons.inj he).1
    exact absurd hlt (Nat.lt_irrefl _)

/-- Alphabetical order is ascending order, or equality. -/
theorem precedes_iff : precedes a b = true ↔ a = b ∨ Before a b := by
  induction a generalizing b with
  | nil => cases b <;> simp [precedes, Before]
  | cons x a ih =>
    cases b with
    | nil => simp [precedes, Before]
    | cons y b =>
      rw [precedes]
      by_cases h : x = y
      · subst h
        rw [if_pos rfl, ih]
        simp [Before, List.cons_lex_cons_iff]
      · have hne : x.toNat ≠ y.toNat := fun he => h (CodePoint.toNat_inj.1 he)
        rw [if_neg h, decide_eq_true_eq]
        simp only [Before, List.cons_lex_cons_iff, List.cons.injEq, h, false_and, false_or,
          or_false]
        omega

theorem precedes_trans (hab : precedes a b = true) (hbc : precedes b c = true) :
    precedes a c = true := by
  rw [precedes_iff] at hab hbc ⊢
  rcases hab with rfl | hab
  · exact hbc
  · rcases hbc with rfl | hbc
    · exact .inr hab
    · exact .inr (List.lex_trans Nat.lt_trans hab hbc)

theorem precedes_total (a b : Text) : precedes a b = true ∨ precedes b a = true := by
  induction a generalizing b with
  | nil => exact .inl rfl
  | cons x a ih =>
    cases b with
    | nil => exact .inr rfl
    | cons y b =>
      rw [precedes, precedes]
      by_cases h : x = y
      · subst h
        rw [if_pos rfl, if_pos rfl]
        exact ih b
      · rw [if_neg h, if_neg (Ne.symm h), decide_eq_true_eq, decide_eq_true_eq]
        exact Nat.le_total x.toNat y.toNat

end Text

namespace Log

variable {vs : List (Text × Json)} {keys : List Text}

/-! ### The order of the lines -/

/-- The keys come in the order of their lines: those with a fixed place first, in their
order, and then the others in ascending order. -/
def LineOrder (keys : List Text) : Prop :=
  ∃ fixed others, keys = fixed ++ others ∧ fixed.Sublist Block.fixedNames ∧
    (∀ k ∈ others, k ∉ Block.fixedNames) ∧ others.Pairwise Text.Before

/-- In the order of the lines no key comes twice. -/
theorem LineOrder.nodup (h : LineOrder keys) : keys.Nodup := by
  obtain ⟨fixed, others, rfl, hfixed, hothers, hlt⟩ := h
  have hnames : Block.fixedNames.Nodup := by decide
  refine List.nodup_append.2 ⟨hnames.sublist hfixed, hlt.imp Text.Before.ne, ?_⟩
  rintro k hk _ hother rfl
  exact hothers k hother (hfixed.subset hk)

/-- Names that are looked up one after the other are found in their order. -/
theorem sublist_filterMap_find? (names : List Text) (vs : List (Text × Json)) :
    ((names.filterMap fun k => vs.find? fun e => e.1 = k).map Prod.fst).Sublist names := by
  induction names with
  | nil => exact .slnil
  | cons k names ih =>
    rw [List.filterMap_cons]
    cases hfind : vs.find? fun e => e.1 = k with
    | none => exact ih.cons k
    | some e =>
      have hk : e.1 = k := by simpa using List.find?_some hfind
      rw [List.map_cons, hk]
      exact ih.cons_cons k

namespace Block

/-- Values under distinct keys are sorted in ascending order of the keys. -/
theorem pairwise_mergeSort_precedes (hn : (vs.map Prod.fst).Nodup) :
    ((vs.mergeSort fun a b => Text.precedes a.1 b.1).map Prod.fst).Pairwise Text.Before := by
  have hsorted : (vs.mergeSort fun a b => Text.precedes a.1 b.1).Pairwise
      fun a b => Text.precedes a.1 b.1 = true := by
    refine List.pairwise_mergeSort (fun a b c hab hbc => ?_) (fun a b => ?_) vs
    · exact Text.precedes_trans hab hbc
    · rw [Bool.or_eq_true]
      exact Text.precedes_total a.1 b.1
  have hdistinct : ((vs.mergeSort fun a b => Text.precedes a.1 b.1).map Prod.fst).Nodup :=
    ((List.mergeSort_perm vs _).map Prod.fst).nodup_iff.2 hn
  refine List.pairwise_map.2 ((hsorted.and (List.pairwise_map.1 hdistinct)).imp fun h => ?_)
  exact (Text.precedes_iff.1 h.1).resolve_left h.2

/-- Values under distinct keys have their lines in the order of the keys. -/
theorem lineOrder_ordered (hn : (vs.map Prod.fst).Nodup) :
    LineOrder ((ordered vs).map Prod.fst) := by
  have hdistinct : (((vs.filter fun e => isShown e.2).filter fun e =>
      e.1 ∉ fixedNames).map Prod.fst).Nodup :=
    hn.sublist ((List.filter_sublist.trans List.filter_sublist).map Prod.fst)
  refine ⟨_, _, List.map_append, sublist_filterMap_find? _ _, ?_, ?_⟩
  · intro k hk
    obtain ⟨e, he, rfl⟩ := List.mem_map.1 hk
    simpa using (List.mem_filter.1 (List.mem_mergeSort.1 he)).2
  · exact pairwise_mergeSort_precedes hdistinct

/-- **Of values under distinct keys those that are not null have a line.** -/
theorem mem_ordered_iff (hn : (vs.map Prod.fst).Nodup) {e : Text × Json} :
    e ∈ ordered vs ↔ e ∈ vs ∧ isShown e.2 = true := by
  have hshown : e ∈ vs ∧ isShown e.2 = true ↔ e ∈ vs.filter fun e => isShown e.2 := by
    rw [List.mem_filter]
  have hdistinct := hn.sublist ((List.filter_sublist (p := fun e => isShown e.2)).map Prod.fst)
  rw [hshown]
  constructor
  · intro h
    rcases List.mem_append.1 h with h | h
    · obtain ⟨k, -, hk⟩ := List.mem_filterMap.1 h
      exact List.mem_of_find?_eq_some hk
    · exact (List.mem_filter.1 (List.mem_mergeSort.1 h)).1
  · intro h
    by_cases hfixed : e.1 ∈ fixedNames
    · refine List.mem_append_left _ (List.mem_filterMap.2 ⟨e.1, hfixed, ?_⟩)
      cases hfind : (vs.filter fun e => isShown e.2).find? fun x => x.1 = e.1 with
      | none => exact absurd (List.find?_eq_none.1 hfind e h) (by simp)
      | some x =>
        -- the only value under the key is found
        have hkey : x.1 = e.1 := by simpa using List.find?_some hfind
        have hx := Entries.get?_of_mem hdistinct (List.mem_of_find?_eq_some hfind)
        rw [hkey, Entries.get?_of_mem hdistinct h] at hx
        exact congrArg some (Prod.ext hkey (Option.some.inj hx).symm)
    · exact List.mem_append_right _
        (List.mem_mergeSort.2 (List.mem_filter.2 ⟨h, by simpa using hfixed⟩))

end Block

/-! ### Values that come through -/

namespace Value

/-- The value is made of nothing, truth values, whole numbers without too many digits, and
texts, in lists and in maps of texts. -/
inductive Loggable : Value → Prop where
  /-- Nothing. -/
  | null : Loggable null
  /-- A truth value. -/
  | bool (b : Bool) : Loggable (bool b)
  /-- A whole number that does not have too many digits. -/
  | int {i : Int} (h : (Number.natText i.natAbs).length ≤ Json.digitLimit) : Loggable (int i)
  /-- A text. -/
  | text (t : Text) : Loggable (text t)
  /-- A list of such values. -/
  | list {items : List Value} (h : ∀ v ∈ items, Loggable v) : Loggable (list items)
  /-- Such values by texts. -/
  | map {entries : List (Text × Value)} (h : ∀ e ∈ entries, Loggable e.2)
      (hd : (entries.map Prod.fst).Nodup) :
      Loggable (map (entries.map fun e => (.text e.1, e.2)))

theorem toJsons_eq_map (items : List Value) : toJsons items = items.map toJson := by
  induction items with
  | nil => rfl
  | cons v items ih => rw [toJsons, ih, List.map_cons]

/-- The members of the object of a map of texts are its entries. -/
theorem toMembers_texts (entries : List (Text × Value)) :
    toMembers (entries.map fun e => (.text e.1, e.2)) =
      entries.map fun e => (e.1, e.2.toJson) := by
  induction entries with
  | nil => rfl
  | cons e entries ih => rw [List.map_cons, toMembers, ih, List.map_cons, display]

/-- Under distinct texts every value of a map comes into its object. -/
theorem toJson_texts {entries : List (Text × Value)} (hd : (entries.map Prod.fst).Nodup) :
    (map (entries.map fun e => (.text e.1, e.2))).toJson =
      .object (entries.map fun e => (e.1, e.2.toJson)) := by
  have hmembers : (([] ++ entries.map fun e : Text × Value => (e.1, e.2.toJson)).map
      Prod.fst).Nodup := by
    rwa [List.nil_append, List.map_map]
  rw [toJson, toMembers_texts, Entries.merge_append hmembers, List.nil_append]

/-- A list of values that keep their literals keeps its own. -/
theorem literalItems_map {items : List Value} (h : ∀ v ∈ items, v.toJson.literal = v.literal) :
    Json.literalItems (items.map toJson) = literals items := by
  induction items with
  | nil => rfl
  | cons v items ih =>
    obtain ⟨hv, h⟩ := List.forall_mem_cons.1 h
    rw [List.map_cons, Json.literalItems, hv, ih h, literals]

/-- A map of values that keep their literals keeps its own. -/
theorem literalMembers_map {entries : List (Text × Value)}
    (h : ∀ e ∈ entries, e.2.toJson.literal = e.2.literal) :
    Json.literalMembers (entries.map fun e => (e.1, e.2.toJson)) =
      entryLiterals (entries.map fun e => (.text e.1, e.2)) := by
  induction entries with
  | nil => rfl
  | cons e entries ih =>
    obtain ⟨he, h⟩ := List.forall_mem_cons.1 h
    show (Text.quote e.1 ++ ": ".text ++ e.2.toJson.literal) :: Json.literalMembers _ =
      (Text.quote e.1 ++ said ": " e.2.literal) :: entryLiterals _
    rw [he, ih h, said, List.append_assoc]

variable {v : Value}

/-- The JSON form of such a value is read back from its text. -/
theorem Loggable.plain (h : v.Loggable) : v.toJson.Plain := by
  induction h with
  | null => exact .null
  | bool b => exact .bool b
  | int h => exact .int h
  | text t => exact .string t
  | list _ ih =>
    rw [toJson, toJsons_eq_map]
    refine .array fun w hw => ?_
    obtain ⟨v, hv, rfl⟩ := List.mem_map.1 hw
    exact ih v hv
  | map _ hd ih =>
    rw [toJson_texts hd]
    refine .object (fun m hm => ?_) (by rwa [List.map_map])
    obtain ⟨e, he, rfl⟩ := List.mem_map.1 hm
    exact ih e he

/-- The JSON form of such a value has the literal of the value. -/
theorem Loggable.literal_toJson (h : v.Loggable) : v.toJson.literal = v.literal := by
  induction h with
  | null => rfl
  | bool b => cases b <;> rfl
  | int h => rfl
  | text t => rfl
  | @list items _ ih =>
    rw [toJson, toJsons_eq_map]
    show .char '[' :: Text.joinWith ", ".text (Json.literalItems (items.map toJson)) ++
      [.char ']'] = _
    rw [literalItems_map ih]
    rfl
  | @map entries _ hd ih =>
    rw [toJson_texts hd]
    show .char '\x7b' :: Text.joinWith ", ".text
      (Json.literalMembers (entries.map fun e => (e.1, e.2.toJson))) ++ [.char '\x7d'] = _
    rw [literalMembers_map ih]
    rfl

/-- **The JSON form of such a value is shown as the value itself.** -/
theorem Loggable.display_toJson (h : v.Loggable) : v.toJson.display = v.display := by
  have hliteral := h.literal_toJson
  cases h with
  | text t => rfl
  | map _ hd =>
    rw [toJson_texts hd] at hliteral ⊢
    exact hliteral
  | _ => exact hliteral

/-- Of such values just nothing has no line. -/
theorem Loggable.isShown_toJson (h : v.Loggable) :
    Block.isShown v.toJson = true ↔ v ≠ .null := by
  cases h <;> simp [toJson, Block.isShown]

/-- The line of a value under its key: a newline in the text of the value is written as a
backslash and the letter n. -/
def line (k : Text) (v : Value) : Text :=
  k ++ said ": " (v.display.flatMap Block.escapeNewline)

example : (text "/a\n=== x ===".text).line "path".text = "path: /a\\n=== x ===".text := by
  decide

end Value

/-! ### The lines of an event -/

namespace Event

variable {time now name k : Text} {level : Level} {fields : OrderedMap Text Value} {v : Value}

/-- What an event shows: the time of its entry, its level and its logger, and over them
its own time and its fields. -/
def shown (now time : Text) (level : Level) (fields : OrderedMap Text Value) :
    OrderedMap Text Value :=
  ((OrderedMap.ofList [("ts_utc".text, .text now), ("level".text, .text level.name),
    ("logger".text, .text programLog)]).insert "ts".text (.text time)).insertAll fields.entries

theorem get?_shown (now time : Text) (level : Level) (fields : OrderedMap Text Value) (k : Text) :
    (shown now time level fields).get? k =
      (fields.get? k).or (if "ts".text = k then some (.text time) else
        Entries.get? k [("ts_utc".text, .text now), ("level".text, .text level.name),
          ("logger".text, .text programLog)]) := by
  rw [shown, OrderedMap.get?, OrderedMap.insertAll, Entries.get?_merge_of_nodup fields.nodup,
    OrderedMap.insert, Entries.get?_insert]
  rfl

/-- What is shown is made of loggable values if the fields are. -/
theorem loggable_of_get?_shown (hfields : ∀ f ∈ fields.entries, f.2.Loggable)
    (h : (shown now time level fields).get? k = some v) : v.Loggable := by
  rw [get?_shown, Option.or_eq_some_iff] at h
  rcases h with h | ⟨-, h⟩
  · exact hfields (k, v) (OrderedMap.get?_eq_some_iff.1 h)
  · split at h
    · cases h
      exact .text time
    · have hmem := Entries.mem_of_get? h
      simp only [List.mem_cons, List.not_mem_nil, or_false, Prod.mk.injEq] at hmem
      rcases hmem with ⟨-, rfl⟩ | ⟨-, rfl⟩ | ⟨-, rfl⟩ <;> exact .text _

/-- **The values of the entry of an event, but for its name, are those that it shows.** -/
theorem get?_entryValues (hown : fields.get? nameKey = none) (k : Text) :
    Entries.get? k (Entries.erase nameKey
        ((make time level name fields.entries).entryValues now)) =
      ((shown now time level fields).get? k).map Value.toJson := by
  have hmembers : ((make time level name fields.entries).members.map Prod.fst).Nodup :=
    Entries.nodup_merge (by simp)
  have hjson : ((fields.entries.map fun f => (f.1, f.2.toJson)).map Prod.fst).Nodup := by
    rw [List.map_map]
    exact fields.nodup
  rw [Entries.get?_erase, get?_shown]
  by_cases hk : nameKey = k
  · -- the name is in the heading
    subst hk
    rw [if_pos rfl, hown]
    rfl
  rw [if_neg hk, entryValues, Entries.get?_merge_of_nodup hmembers, make,
    Entries.get?_merge_of_nodup hjson, Entries.get?_map, ← OrderedMap.get?]
  cases fields.get? k with
  | some v => rfl
  | none =>
    have hpair : Entries.get? k [("ts".text, .string time), ("event".text, .string name)] =
        if "ts".text = k then some (Json.string time) else none := by
      have hne : ¬ "event".text = k := hk
      rw [Entries.get?, Entries.get?_cons_of_ne hne]
      rfl
    rw [Option.map_none, Option.none_or, Option.none_or, hpair]
    by_cases hts : "ts".text = k
    · rw [if_pos hts, if_pos hts]
      rfl
    · rw [if_neg hts, if_neg hts, Option.none_or, ← Entries.get?_map]
      rfl

theorem nodup_entryValues (now : Text) (e : Event) :
    ((Entries.erase nameKey (e.entryValues now)).map Prod.fst).Nodup :=
  Entries.nodup_erase (Entries.nodup_merge (by simp))

/-- The values of the entry of an event that have a line are those that it shows. -/
theorem mem_ordered_entryValues (hown : fields.get? nameKey = none)
    (hfields : ∀ f ∈ fields.entries, f.2.Loggable) {m : Text × Json} :
    m ∈ Block.ordered (Entries.erase nameKey
        ((make time level name fields.entries).entryValues now)) ↔
      ∃ v, (shown now time level fields).get? m.1 = some v ∧ v.toJson = m.2 ∧ v ≠ .null := by
  have hnodup := nodup_entryValues now (make time level name fields.entries)
  have hmem : m ∈ Entries.erase nameKey
      ((make time level name fields.entries).entryValues now) ↔
        ∃ v, (shown now time level fields).get? m.1 = some v ∧ v.toJson = m.2 := by
    rw [← Option.map_eq_some_iff, ← get?_entryValues hown]
    exact ⟨Entries.get?_of_mem hnodup, Entries.mem_of_get?⟩
  rw [Block.mem_ordered_iff hnodup, hmem]
  constructor
  · rintro ⟨⟨v, hv, hm⟩, hshown⟩
    rw [← hm] at hshown
    exact ⟨v, hv, hm, (loggable_of_get?_shown hfields hv).isShown_toJson.1 hshown⟩
  · rintro ⟨v, hv, hm, hne⟩
    refine ⟨⟨v, hv, hm⟩, ?_⟩
    rw [← hm]
    exact (loggable_of_get?_shown hfields hv).isShown_toJson.2 hne

/-- **The block of an event is its heading and a line for each value that it shows**, in
the order of the keys, whatever the values hold: a value that is nothing has no line, and
no value has more than one. -/
theorem lines_of_make? {given : Option Value}
    (hlevel : given.elim (some .info) Level.ofValue? = some level) (hname : .char '\n' ∉ name)
    (hown : fields.get? nameKey = none) (hfree : fields.get? levelKey = none)
    (hfields : ∀ f ∈ fields.entries, .char '\n' ∉ f.1 ∧ f.2.Loggable) :
    ∃ event, make? time given name fields = .ok event ∧
      ∃ text keys lines,
        Block.texts now true
          [{ message := event.line, logger := programLog, level := event.level }] = .ok [text] ∧
        Text.splitOn '\n' text = said "=== " (name ++ " ===".text) :: lines ∧
        List.Forall₂ (fun k line =>
          ∃ v, (shown now time level fields).get? k = some v ∧ line = v.line k) keys lines ∧
        LineOrder keys ∧ keys.Nodup ∧
        ∀ k, k ∈ keys ↔ ∃ v, (shown now time level fields).get? k = some v ∧ v ≠ .null := by
  have hmake : make? time given name fields = .ok (make time level name fields.entries) := by
    have herase : (fields.erase levelKey).entries = fields.entries := Entries.erase_of_get? hfree
    simp [make?, hown, hfree, hlevel, herase]
  have hplain : (Json.object (make time level name fields.entries).members).Plain :=
    plain_make fun f hf => (hfields f hf).2.plain
  have hkey : nameKey ∉ fields.entries.map Prod.fst := Entries.get?_eq_none_iff.1 hown
  have hunbroken : ∀ m ∈ (make time level name fields.entries).members, .char '\n' ∉ m.1 :=
    unbroken_make fun f hf => (hfields f hf).1
  have hmem := @mem_ordered_entryValues time now name level fields hown
    fun f hf => (hfields f hf).2
  have horder := Block.lineOrder_ordered
    (nodup_entryValues now (make time level name fields.entries))
  refine ⟨_, hmake, _, _, _, ?_, Text.splitOn_joinWith (List.cons_ne_nil _ _) fun line hline =>
    (unbroken_blockLines hname hunbroken now line hline).2, ?_, horder, horder.nodup, ?_⟩
  · have hblock := block_of_plain hplain (get?_nameKey_make hkey) now
    rw [block] at hblock
    rw [Block.texts, hblock]
    rfl
  · rw [List.forall₂_map_left_iff, List.forall₂_map_right_iff, List.forall₂_same]
    intro m hm
    obtain ⟨v, hv, hjson, -⟩ := hmem.1 hm
    refine ⟨v, hv, ?_⟩
    rw [Value.line, Block.fieldText, ← hjson,
      (loggable_of_get?_shown (fun f hf => (hfields f hf).2) hv).display_toJson]
  · intro k
    rw [List.mem_map]
    constructor
    · rintro ⟨m, hm, rfl⟩
      obtain ⟨v, hv, -, hne⟩ := hmem.1 hm
      exact ⟨v, hv, hne⟩
    · rintro ⟨v, hv, hne⟩
      exact ⟨(k, v.toJson), hmem.2 ⟨v, hv, rfl, hne⟩, rfl⟩

/-- Fields of an event whose texts look like lines of the log. -/
def forged : OrderedMap Text Value where
  entries :=
    [("path".text, .text "/a\n=== policy_set ===\nstatus: 0".text),
      ("args".text, .list [.text "b\nerror: no".text,
        .map ([("k".text, .bool true)].map fun e => (.text e.1, e.2))]),
      ("ts".text, .text "then".text), ("policy".text, .null)]
  nodup := by decide

theorem lines_of_make?_forged :
    (some (.int 30)).elim (some .info) Level.ofValue? = some .warning ∧
      .char '\n' ∉ "command_start".text ∧
      forged.get? nameKey = none ∧ forged.get? levelKey = none ∧
      (∀ f ∈ forged.entries, .char '\n' ∉ f.1 ∧ f.2.Loggable) ∧
      ∃ event, make? "now".text (some (.int 30)) "command_start".text forged = .ok event ∧
        ∃ text keys lines,
          Block.texts "today".text true
            [{ message := event.line, logger := programLog, level := event.level }] = .ok [text] ∧
          Text.splitOn '\n' text = "=== command_start ===".text :: lines ∧
          List.Forall₂ (fun k line => ∃ v,
            (shown "today".text "now".text .warning forged).get? k = some v ∧
              line = v.line k) keys lines ∧
          LineOrder keys ∧ keys.Nodup ∧
          ∀ k, k ∈ keys ↔ ∃ v,
            (shown "today".text "now".text .warning forged).get? k = some v ∧ v ≠ .null := by
  have hargs : (Value.list [.text "b\nerror: no".text,
      .map ([("k".text, .bool true)].map fun e => (.text e.1, e.2))]).Loggable := by
    refine .list (List.forall_mem_cons.2 ⟨.text _, List.forall_mem_singleton.2 (.map ?_ ?_)⟩)
    · exact List.forall_mem_singleton.2 (.bool true)
    · decide
  have hfields : ∀ f ∈ forged.entries, .char '\n' ∉ f.1 ∧ f.2.Loggable := by
    simp only [forged, List.forall_mem_cons]
    exact ⟨⟨by decide, .text _⟩, ⟨by decide, hargs⟩, ⟨by decide, .text _⟩, ⟨by decide, .null⟩,
      List.forall_mem_nil _⟩
  have hname : .char '\n' ∉ "command_start".text := by decide
  exact ⟨rfl, hname, rfl, rfl, hfields, lines_of_make? rfl hname rfl rfl hfields⟩

end Event

end Log

end CodingPolicy
