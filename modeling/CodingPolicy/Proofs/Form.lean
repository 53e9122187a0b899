/-
CodingPolicy/Proofs/Form.lean

The JSON form of a state.  `State.Form` says without the checks which values are
forms, and of which states; reading a value makes a state just where the value is a
form of that state (`State.ofJson_eq_ok`).  So every state that is read keeps the
rules (`State.valid_of_ofJson`), and a state that keeps the rules is read back from
its own form (`State.ofJson_toJson`): reading and printing stay within the valid
states.

Main result: the values that are accepted are those that keep to the schema, and the
state is the one that they tell (`State.accepted_by_schema`).
-/
import Mathlib.Data.List.Forall2
import CodingPolicy.Proofs.RoundTrip
import CodingPolicy.Proofs.Validity

namespace CodingPolicy

variable {α β : Type}

/-! ### Lists, item by item -/

/-- Items that are told by what they stand for are those of the list. -/
theorem forall₂_eq_map {f : α → β} {items : List β} {as : List α} :
    List.Forall₂ (fun b a => b = f a) items as ↔ items = as.map f := by
  rw [← List.forall₂_eq_eq_eq, List.forall₂_map_right_iff]

/-- For a list of items, each of which stands for something, there is a list of what
they stand for. -/
theorem exists_forall₂_iff {R : β → α → Prop} {items : List β} :
    (∃ as, List.Forall₂ R items as) ↔ ∀ b ∈ items, ∃ a, R b a := by
  induction items with
  | nil => simp
  | cons b items ih =>
    rw [List.forall_mem_cons, ← ih]
    constructor
    · rintro ⟨as, h⟩
      cases h with
      | cons hb h => exact ⟨⟨_, hb⟩, _, h⟩
    · rintro ⟨⟨a, ha⟩, as, h⟩
      exact ⟨a :: as, .cons ha h⟩

/-- Items of one shape are the images of a list. -/
theorem exists_map_iff {f : α → β} {P : α → Prop} {items : List β} :
    (∃ as : List α, items = as.map f ∧ ∀ a ∈ as, P a) ↔ ∀ b ∈ items, ∃ a, b = f a ∧ P a := by
  induction items with
  | nil => exact iff_of_true ⟨[], rfl, nofun⟩ nofun
  | cons b items ih =>
    rw [List.forall_mem_cons, ← ih]
    constructor
    · rintro ⟨as, h, hP⟩
      obtain ⟨a, as, rfl, rfl, rfl⟩ := List.map_eq_cons_iff.1 h.symm
      exact ⟨⟨a, rfl, hP a (.head _)⟩, as, rfl, fun x hx => hP x (.tail _ hx)⟩
    · rintro ⟨⟨a, rfl, ha⟩, as, rfl, hP⟩
      exact ⟨a :: as, rfl, List.forall_mem_cons.2 ⟨ha, hP⟩⟩

/-! ### Collected results -/

/-- Everything is collected just where every check succeeds. -/
theorem gather_eq_ok {results : List (Except (List Violation) α)} {as : List α} :
    gather results = .ok as ↔ results = as.map .ok := by
  constructor
  · intro h
    induction results generalizing as with
    | nil =>
      cases h
      rfl
    | cons result results ih =>
      rcases result with vs | a
      · rw [gather] at h
        split at h <;> cases h
      · rw [gather] at h
        split at h
        · next as' hr =>
          cases h
          rw [ih hr, List.map_cons]
        · cases h
  · rintro rfl
    induction as with
    | nil => rfl
    | cons a as ih => simp [gather, ih]

/-- Checks of items, each in its own way, collect what every item stands for. -/
theorem gather_map_eq_ok {check : β → Except (List Violation) α} {items : List β} {as : List α} :
    gather (items.map check) = .ok as ↔
      List.Forall₂ (fun b a => check b = .ok a) items as := by
  rw [gather_eq_ok, ← List.forall₂_eq_eq_eq, List.forall₂_map_left_iff, List.forall₂_map_right_iff]

/-- The place of an item does not matter to whether it is accepted. -/
theorem readItemsWith_eq_ok {check : Json → Except (List Violation) α} {items : List Json}
    {as : List α} :
    readItemsWith check items = .ok as ↔
      List.Forall₂ (fun v a => check v = .ok a) items as := by
  rw [readItemsWith, gather_eq_ok, ← List.forall₂_eq_eq_eq, List.forall₂_map_right_iff,
    List.forall₂_iff_get, List.forall₂_iff_get]
  simp [within_eq_ok]

/-! ### The form -/

/-- The text has a character that is not white space. -/
def Text.NotBlank (t : Text) : Prop :=
  ∃ c ∈ t, Text.isBlank c = false

theorem Text.notBlank_iff {t : Text} : t.NotBlank ↔ isBlankText t = false := by
  simp [NotBlank, isBlankText]

namespace State

/-- The form of a place in the list of policies: null for a gap, or an object that has
the policy's name. -/
inductive SlotForm : Json → Option Policy → Prop where
  /-- Null stands for a gap. -/
  | gap : SlotForm .null none
  /-- An object stands for the policy of its name. -/
  | named {members : List (Text × Json)} {name : Text}
      (hget : Entries.get? "name".text members = some (.string name)) (hname : name.NotBlank) :
      SlotForm (.object members) (some ⟨name⟩)

/-- The form of the list of policies: a list, place by place. -/
inductive PoliciesForm : Json → List (Option Policy) → Prop where
  | list {items : List Json} {slots : List (Option Policy)}
      (h : List.Forall₂ SlotForm items slots) :
      PoliciesForm (.array items) slots

/-- What is asked of a path and the name of its policy. -/
def EntryRule (e : Text × Text) : Prop :=
  e.1.head? = some (.char '/') ∧ e.2.NotBlank

/-- The form of the assignments: an object that has the names at the paths. -/
inductive AssignmentsForm : Json → OrderedMap Text Text → Prop where
  | named {given : List (Text × Text)} (h : ∀ e ∈ given, EntryRule e) :
      AssignmentsForm (.object (given.map fun e => (e.1, .string e.2))) (.ofList given)

/-- The form of the files: a list of their paths. -/
inductive FilesForm : Json → List Text → Prop where
  | list {files : List Text} (h : ∀ f ∈ files, f.head? = some (.char '/')) :
      FilesForm (.array (files.map .string)) files

/-- A value that may be absent, and then stands for a default. -/
inductive OrDefault (form : Json → α → Prop) (default : α) : Option Json → α → Prop where
  /-- Without a value the default counts. -/
  | absent : OrDefault form default none default
  /-- A value counts as what it is the form of. -/
  | present {v : Json} {a : α} (h : form v a) : OrDefault form default (some v) a

/-- **The form of a state**: an object with three keys, each of which may be absent.
What it has under other keys does not matter. -/
inductive Form : Json → State → Prop where
  | object {members : List (Text × Json)} {s : State}
      (policies : OrDefault PoliciesForm Policy.system
        (Entries.get? "policies".text members) s.policies)
      (assignments : OrDefault AssignmentsForm .empty
        (Entries.get? "assignments".text members) s.assignments)
      (files : OrDefault FilesForm [] (Entries.get? "files".text members) s.files) :
      Form (.object members) s

/-! ### Reading makes a state of its forms -/

variable {s : State} {v : Json}

theorem slotForm_of_ofJson {p : Policy} (h : Policy.ofJson v = .ok p) : SlotForm v (some p) := by
  unfold Policy.ofJson at h
  split at h
  · split at h
    · next members w hget =>
      obtain ⟨name, hname, hcheck⟩ := bind_eq_ok.1 (within_eq_ok.1 h)
      rw [readTextValue_eq_ok] at hname
      subst hname
      unfold Policy.checkName at hcheck
      split at hcheck
      · cases hcheck
      · next hblank =>
        cases hcheck
        exact .named hget (Text.notBlank_iff.2 (by simpa using hblank))
    · cases h
  · cases h

/-- A place in the list of policies is read as what it is the form of. -/
theorem readSlot_eq_ok {slot : Option Policy} : readSlot v = .ok slot ↔ SlotForm v slot := by
  constructor
  · intro h
    unfold readSlot at h
    split at h
    · cases h
      exact .gap
    · obtain ⟨p, hp, rfl⟩ := map_eq_ok.1 h
      exact slotForm_of_ofJson hp
  · intro h
    cases h with
    | gap => rfl
    | @named members name hget hname =>
      have hread : Policy.ofJson (.object members) = .ok ⟨name⟩ := by
        rw [Policy.ofJson, hget]
        show Policy.readName (.string name) = _
        rw [Policy.readName, within_eq_ok]
        show Policy.checkName name = _
        rw [Policy.checkName, Text.notBlank_iff.1 hname]
        rfl
      rw [readSlot, hread]
      · rfl
      · intro hnull
        cases hnull

theorem readPolicies_eq_ok {slots : List (Option Policy)} :
    readPolicies v = .ok slots ↔ PoliciesForm v slots := by
  constructor
  · intro h
    unfold readPolicies at h
    split at h
    · simp only [readItemsWith_eq_ok, readSlot_eq_ok] at h
      exact .list h
    · cases h
  · rintro ⟨h⟩
    simp only [readPolicies, readItemsWith_eq_ok, readSlot_eq_ok]
    exact h

/-- An entry without a fault keeps the rules. -/
theorem entryFault?_eq_none {e : Text × Text} : entryFault? e = none ↔ EntryRule e := by
  rw [EntryRule, Text.notBlank_iff]
  unfold entryFault?
  split
  · next h => simp [h]
  · next h =>
    split
    · next hb => simp [hb]
    · next hb =>
      simp only [Bool.not_eq_true] at hb
      exact ⟨fun _ => ⟨Decidable.not_not.1 h, hb⟩, fun _ => rfl⟩

/-- The entries that are read are those of the object, with texts for their values. -/
theorem gather_entries_eq_ok {members : List (Text × Json)} {given : List (Text × Text)} :
    gather (members.map fun e =>
        within (.key e.1) ((readTextValue e.2).map fun name => (e.1, name))) = .ok given ↔
      members = given.map fun e => (e.1, .string e.2) := by
  rw [gather_map_eq_ok, ← forall₂_eq_map]
  have hentry (m : Text × Json) (e : Text × Text) :
      within (.key m.1) ((readTextValue m.2).map fun name => (m.1, name)) = .ok e ↔
        m = (e.1, .string e.2) := by
    rw [within_eq_ok, map_eq_ok]
    simp only [readTextValue_eq_ok, Prod.ext_iff]
    constructor
    · rintro ⟨name, hname, hkey, rfl⟩
      exact ⟨hkey, hname⟩
    · rintro ⟨hkey, hname⟩
      exact ⟨e.2, hname, hkey, rfl⟩
  simp only [hentry]

theorem readAssignments_eq_ok {m : OrderedMap Text Text} :
    readAssignments v = .ok m ↔ AssignmentsForm v m := by
  constructor
  · intro h
    unfold readAssignments at h
    split at h
    · obtain ⟨given, hgiven, h⟩ := bind_eq_ok.1 h
      split at h
      · cases h
      · next hnone =>
        cases h
        rw [gather_entries_eq_ok.1 hgiven]
        exact .named fun e he => entryFault?_eq_none.1 (List.findSome?_eq_none_iff.1 hnone e he)
    · cases h
  · rintro @⟨given, h⟩
    have hnone : given.findSome? entryFault? = none :=
      List.findSome?_eq_none_iff.2 fun e he => entryFault?_eq_none.2 (h e he)
    rw [readAssignments, gather_entries_eq_ok.2 rfl, ok_bind, hnone]
    rfl

theorem readFiles_eq_ok {files : List Text} : readFiles v = .ok files ↔ FilesForm v files := by
  have hitems (items : List Json) (files : List Text) :
      readItemsWith readTextValue items = .ok files ↔ items = files.map .string := by
    simp only [readItemsWith_eq_ok, readTextValue_eq_ok, forall₂_eq_map]
  constructor
  · intro h
    unfold readFiles at h
    split at h
    · obtain ⟨files', hread, h⟩ := bind_eq_ok.1 h
      split at h
      · cases h
      · next hnone =>
        cases h
        rw [(hitems _ _).1 hread]
        exact .list fun f hf => by simpa using List.find?_eq_none.1 hnone f hf
    · cases h
  · rintro ⟨h⟩
    have hnone : (files.find? fun f => f.head? ≠ some (.char '/')) = none :=
      List.find?_eq_none.2 fun f hf => by simp [h f hf]
    rw [readFiles, (hitems _ _).2 rfl, ok_bind, hnone]
    rfl

/-- A key is read as what its value is the form of, or as the default. -/
theorem readKey_eq_ok {key : String} {check : Json → Except (List Violation) α} {default a : α}
    {members : List (Text × Json)} {form : Json → α → Prop}
    (hform : ∀ v a, check v = .ok a ↔ form v a) :
    readKey key check default members = .ok a ↔
      OrDefault form default (Entries.get? key.text members) a := by
  rw [readKey]
  cases Entries.get? key.text members with
  | none =>
    constructor
    · intro h
      cases h
      exact .absent
    · rintro ⟨⟩
      rfl
  | some v =>
    dsimp only
    rw [within_eq_ok, hform]
    constructor
    · exact .present
    · intro h
      cases h with
      | present h => exact h

/-- **Reading makes a state just of its forms.** -/
theorem ofJson_eq_ok : ofJson v = .ok s ↔ Form v s := by
  constructor
  · intro h
    unfold ofJson at h
    split at h
    · dsimp only at h
      split at h
      · next hp ha hf =>
        cases h
        exact .object ((readKey_eq_ok fun _ _ => readPolicies_eq_ok).1 hp)
          ((readKey_eq_ok fun _ _ => readAssignments_eq_ok).1 ha)
          ((readKey_eq_ok fun _ _ => readFiles_eq_ok).1 hf)
      · cases h
    · cases h
  · rintro ⟨hp, ha, hf⟩
    rw [ofJson, (readKey_eq_ok fun _ _ => readPolicies_eq_ok).2 hp,
      (readKey_eq_ok fun _ _ => readAssignments_eq_ok).2 ha,
      (readKey_eq_ok fun _ _ => readFiles_eq_ok).2 hf]

/-! ### Reading keeps to the valid states -/

theorem OrDefault.eq_or_form {form : Json → α → Prop} {default a : α} {o : Option Json}
    (h : OrDefault form default o a) : a = default ∨ ∃ v, form v a := by
  cases h with
  | absent => exact .inl rfl
  | present h => exact .inr ⟨_, h⟩

theorem PoliciesForm.notBlank {slots : List (Option Policy)} (h : PoliciesForm v slots)
    {p : Policy} (hp : some p ∈ slots) : p.name.NotBlank := by
  obtain ⟨h⟩ := h
  induction h with
  | nil => cases hp
  | cons hslot _ ih =>
    rcases List.mem_cons.1 hp with rfl | hp
    · cases hslot with
      | named _ hname => exact hname
    · exact ih hp

theorem AssignmentsForm.entryRule {m : OrderedMap Text Text} (h : AssignmentsForm v m)
    {e : Text × Text} (he : e ∈ m.entries) : EntryRule e := by
  obtain ⟨h⟩ := h
  rcases Entries.mem_merge he with he | he
  · cases he
  · exact h e he

theorem FilesForm.absolute {files : List Text} (h : FilesForm v files) :
    ∀ f ∈ files, f.head? = some (.char '/') := by
  obtain ⟨h⟩ := h
  exact h

/-- **A state that was read keeps the rules.** -/
theorem valid_of_ofJson (h : ofJson v = .ok s) : s.Valid := by
  obtain ⟨hp, ha, hf⟩ := ofJson_eq_ok.1 h
  -- what is not given is as in a new namespace
  constructor
  case policies =>
    intro p hmem
    rcases hp.eq_or_form with hnew | ⟨v, hform⟩
    · rw [known, hnew] at hmem
      exact valid_new.policies p hmem
    · obtain ⟨slot, hslot, rfl⟩ := List.mem_filterMap.1 hmem
      exact Text.notBlank_iff.1 (hform.notBlank hslot)
  case assignments =>
    intro e he
    rcases ha.eq_or_form with hnew | ⟨v, hform⟩
    · rw [hnew] at he
      cases he
    · exact (hform.entryRule he).imp_right Text.notBlank_iff.1
  case files =>
    intro f hmem
    rcases hf.eq_or_form with hnew | ⟨v, hform⟩
    · rw [hnew] at hmem
      cases hmem
    · exact hform.absolute f hmem

/-- A state that keeps the rules has its own form. -/
theorem form_toJson (hs : s.Valid) : Form s.toJson s := by
  have given : AssignmentsForm (.object (s.assignments.entries.map fun e => (e.1, .string e.2)))
      s.assignments := by
    have hnamed := AssignmentsForm.named fun e he =>
      (hs.assignments e he).imp_right Text.notBlank_iff.2
    rwa [OrderedMap.ofList_entries] at hnamed
  refine .object (.present (.list ?_)) (.present given) (.present (.list hs.files))
  rw [List.forall₂_map_left_iff, List.forall₂_same]
  intro slot hslot
  rcases slot with - | p
  · exact .gap
  · exact .named rfl (Text.notBlank_iff.2 (hs.policies p (List.mem_filterMap.2 ⟨_, hslot, rfl⟩)))

/-- **A valid state is read back from its form.** -/
theorem ofJson_toJson (hs : s.Valid) : ofJson s.toJson = .ok s :=
  ofJson_eq_ok.2 (form_toJson hs)

/-- The form of a state has no numbers and no name twice. -/
theorem plain_toJson (s : State) : s.toJson.Plain := by
  have strings : ∀ v ∈ s.files.map Json.string, v.Plain := by
    intro v hv
    obtain ⟨t, -, rfl⟩ := List.mem_map.1 hv
    exact .string t
  have assigned : (Json.object (s.assignments.entries.map fun e => (e.1, .string e.2))).Plain := by
    refine .object (fun e he => ?_) ?_
    · obtain ⟨e, -, rfl⟩ := List.mem_map.1 he
      exact .string e.2
    · rw [List.map_map]
      exact s.assignments.nodup
  refine .object (fun e he => ?_) (by simp)
  simp only [List.mem_cons, List.not_mem_nil, or_false] at he
  rcases he with rfl | rfl | rfl
  · refine .array fun v hv => ?_
    obtain ⟨slot, -, rfl⟩ := List.mem_map.1 hv
    rcases slot with - | p
    · exact .null
    · refine .object (fun m hm => ?_) (by simp)
      rw [List.mem_singleton.1 hm]
      exact .string p.name
  · exact assigned
  · exact .array strings

/-! ### The schema -/

/-- A value for a place in the list of policies: null, or an object with a name. -/
inductive SlotSchema : Json → Prop where
  | null : SlotSchema .null
  | named {members : List (Text × Json)} {name : Text}
      (hget : Entries.get? "name".text members = some (.string name)) (hname : name.NotBlank) :
      SlotSchema (.object members)

/-- **The schema of a state**: an object; the policies in it are a list of nulls and named
objects, the assignments an object with absolute paths for its keys and names for its
values, and the files a list of absolute paths.  Each of the three may be absent. -/
inductive Schema : Json → Prop where
  | object {members : List (Text × Json)}
      (policies : ∀ v, Entries.get? "policies".text members = some v →
        ∃ items, v = .array items ∧ ∀ w ∈ items, SlotSchema w)
      (assignments : ∀ v, Entries.get? "assignments".text members = some v →
        ∃ entries, v = .object entries ∧ ∀ e ∈ entries,
          e.1.head? = some (.char '/') ∧ ∃ name, e.2 = .string name ∧ name.NotBlank)
      (files : ∀ v, Entries.get? "files".text members = some v →
        ∃ items, v = .array items ∧ ∀ w ∈ items,
          ∃ f, w = .string f ∧ f.head? = some (.char '/')) :
      Schema (.object members)

theorem exists_orDefault_iff {form : Json → α → Prop} {d : α} {o : Option Json} :
    (∃ a, OrDefault form d o a) ↔ ∀ v, o = some v → ∃ a, form v a := by
  cases o with
  | none => exact iff_of_true ⟨_, .absent⟩ nofun
  | some v =>
    constructor
    · rintro ⟨a, h⟩ w hw
      cases hw
      cases h with
      | present h => exact ⟨a, h⟩
    · intro h
      obtain ⟨a, ha⟩ := h v rfl
      exact ⟨a, .present ha⟩

theorem exists_slotForm_iff : (∃ slot, SlotForm v slot) ↔ SlotSchema v := by
  constructor
  · rintro ⟨slot, h⟩
    cases h with
    | gap => exact .null
    | named hget hname => exact .named hget hname
  · intro h
    cases h with
    | null => exact ⟨_, .gap⟩
    | named hget hname => exact ⟨_, .named hget hname⟩

theorem exists_policiesForm_iff :
    (∃ slots, PoliciesForm v slots) ↔ ∃ items, v = .array items ∧ ∀ w ∈ items, SlotSchema w := by
  simp only [← exists_slotForm_iff, ← exists_forall₂_iff]
  constructor
  · rintro ⟨slots, ⟨h⟩⟩
    exact ⟨_, rfl, slots, h⟩
  · rintro ⟨items, rfl, slots, h⟩
    exact ⟨slots, .list h⟩

theorem exists_assignmentsForm_iff :
    (∃ m, AssignmentsForm v m) ↔ ∃ entries, v = .object entries ∧ ∀ e ∈ entries,
      e.1.head? = some (.char '/') ∧ ∃ name, e.2 = .string name ∧ name.NotBlank := by
  have hentry (e : Text × Json) :
      (e.1.head? = some (.char '/') ∧ ∃ name, e.2 = .string name ∧ name.NotBlank) ↔
        ∃ g : Text × Text, e = (g.1, .string g.2) ∧ EntryRule g := by
    constructor
    · rintro ⟨hkey, name, hvalue, hname⟩
      exact ⟨(e.1, name), Prod.ext rfl hvalue, hkey, hname⟩
    · rintro ⟨g, rfl, hkey, hname⟩
      exact ⟨hkey, g.2, rfl, hname⟩
  simp only [hentry]
  constructor
  · rintro ⟨m, @⟨given, h⟩⟩
    exact ⟨_, rfl, exists_map_iff.1 ⟨given, rfl, h⟩⟩
  · rintro ⟨entries, rfl, h⟩
    obtain ⟨given, rfl, hgiven⟩ := exists_map_iff.2 h
    exact ⟨_, .named hgiven⟩

theorem exists_filesForm_iff :
    (∃ files, FilesForm v files) ↔ ∃ items, v = .array items ∧ ∀ w ∈ items,
      ∃ f, w = .string f ∧ f.head? = some (.char '/') := by
  constructor
  · rintro ⟨files, ⟨h⟩⟩
    exact ⟨_, rfl, exists_map_iff.1 ⟨files, rfl, h⟩⟩
  · rintro ⟨items, rfl, h⟩
    obtain ⟨files, rfl, hfiles⟩ := exists_map_iff.2 h
    exact ⟨files, .list hfiles⟩

/-- **The forms of states are the values that keep to the schema.** -/
theorem exists_form_iff : (∃ s, Form v s) ↔ Schema v := by
  constructor
  · rintro ⟨s, ⟨hp, ha, hf⟩⟩
    constructor
    case policies =>
      exact fun v hv => exists_policiesForm_iff.1 (exists_orDefault_iff.1 ⟨_, hp⟩ v hv)
    case assignments =>
      exact fun v hv => exists_assignmentsForm_iff.1 (exists_orDefault_iff.1 ⟨_, ha⟩ v hv)
    case files => exact fun v hv => exists_filesForm_iff.1 (exists_orDefault_iff.1 ⟨_, hf⟩ v hv)
  · rintro ⟨hp, ha, hf⟩
    obtain ⟨policies, hp⟩ := exists_orDefault_iff (d := Policy.system).2
      fun v hv => exists_policiesForm_iff.2 (hp v hv)
    obtain ⟨assignments, ha⟩ := exists_orDefault_iff (d := OrderedMap.empty).2
      fun v hv => exists_assignmentsForm_iff.2 (ha v hv)
    obtain ⟨files, hf⟩ := exists_orDefault_iff (d := []).2
      fun v hv => exists_filesForm_iff.2 (hf v hv)
    exact ⟨⟨policies, assignments, files⟩, .object hp ha hf⟩

/-- Assignments at distinct paths keep the order of the object. -/
theorem entries_of_assignmentsForm {entries : List (Text × Json)} {m : OrderedMap Text Text}
    (h : AssignmentsForm (.object entries) m) (hn : (entries.map Prod.fst).Nodup) :
    m.entries.map (fun e => (e.1, Json.string e.2)) = entries := by
  generalize hv : Json.object entries = v at h
  obtain @⟨given, h⟩ := h
  cases hv
  rw [List.map_map] at hn
  have hmerge : Entries.merge [] given = given := Entries.merge_append hn
  rw [OrderedMap.ofList, OrderedMap.insertAll]
  exact congrArg _ hmerge

/-- **A value is accepted just where it keeps to the schema**, and the state is then the one
that it tells: every place in the list of policies is a gap or the policy of the given
name, the assignments and the files are the given ones, and what is absent is as in a new
namespace.  Assignments at distinct paths keep their order.  A state that was read is read
back from its own form. -/
theorem accepted_by_schema (v : Json) :
    ((∃ s, ofJson v = .ok s) ↔ Schema v) ∧
    (∀ s, ofJson v = .ok s ↔ Form v s) ∧
    ∀ s, ofJson v = .ok s →
      (∀ members entries, v = .object members →
        Entries.get? "assignments".text members = some (.object entries) →
        (entries.map Prod.fst).Nodup →
        s.assignments.entries.map (fun e => (e.1, Json.string e.2)) = entries) ∧
      ofJson s.toJson = .ok s := by
  refine ⟨?_, fun s => ofJson_eq_ok, fun s h => ⟨?_, ofJson_toJson (valid_of_ofJson h)⟩⟩
  · simp only [ofJson_eq_ok, exists_form_iff]
  · rintro members entries rfl hget hn
    generalize hv : Json.object members = v at h
    obtain ⟨-, ha, -⟩ := ofJson_eq_ok.1 h
    cases hv
    rw [hget] at ha
    cases ha with
    | present ha => exact entries_of_assignmentsForm ha hn

end State

end CodingPolicy
