/-
CodingPolicy/OrderedMap.lean

Maps that keep their keys in the order in which they were first inserted:
replacing a value keeps the key's place, and a key that was erased and is
inserted again goes to the end.

The map is a list of entries together with the fact that no key occurs twice.
Lists of entries that are not known to be distinct have the same insertion
(`Entries.insert`), so that they can be made into maps from the left.

Main results: what is looked up after an insertion (`get?_insert`), after an
erasure (`get?_erase`) and after insertions one after the other (`get?_merge`), and
the order in which these leave the keys (`map_fst_merge`).
-/
namespace CodingPolicy

variable {κ α : Type} [DecidableEq κ]

/-! ### Lists of entries -/

namespace Entries

/-- The value at the first entry with the key. -/
def get? (k : κ) : List (κ × α) → Option α
  | [] => none
  | e :: r => if e.1 = k then some e.2 else get? k r

/-- The entries with the value at the key: in the place of the key's entry,
or at the end. -/
def insert (k : κ) (v : α) : List (κ × α) → List (κ × α)
  | [] => [(k, v)]
  | e :: r => if e.1 = k then (k, v) :: r else e :: insert k v r

/-- The entries without those of the key. -/
def erase (k : κ) (entries : List (κ × α)) : List (κ × α) :=
  entries.filter fun e => e.1 ≠ k

/-- The entries inserted one after the other, so that of two values for a key
the later one counts, at the place of the earlier one. -/
def merge (base : List (κ × α)) (later : List (κ × α)) : List (κ × α) :=
  later.foldl (fun l e => insert e.1 e.2 l) base

theorem get?_insert (j k : κ) (v : α) (l : List (κ × α)) :
    get? j (insert k v l) = if k = j then some v else get? j l := by
  induction l with
  | nil => simp [insert, get?]
  | cons e r ih =>
    rw [insert]
    by_cases h : e.1 = k
    · rw [if_pos h]
      by_cases hj : k = j
      · simp [get?, hj]
      · simp [get?, h, hj]
    · rw [if_neg h]
      by_cases hj : e.1 = j
      · have : ¬ k = j := fun hk => h (hj.trans hk.symm)
        simp [get?, hj, this]
      · simp [get?, hj, ih]

theorem get?_cons_of_ne {j k : κ} {v : α} {l : List (κ × α)} (h : ¬ j = k) :
    get? k ((j, v) :: l) = get? k l :=
  if_neg h

theorem mem_of_get? {k : κ} {v : α} {l : List (κ × α)} (h : get? k l = some v) : (k, v) ∈ l := by
  induction l with
  | nil => cases h
  | cons e r ih =>
    rw [get?] at h
    split at h
    · next he =>
      cases h
      cases he
      exact .head _
    · exact .tail _ (ih h)

/-- Among entries with distinct keys every entry is found. -/
theorem get?_of_mem {k : κ} {v : α} {l : List (κ × α)} (hn : (l.map Prod.fst).Nodup)
    (h : (k, v) ∈ l) : get? k l = some v := by
  induction l with
  | nil => cases h
  | cons e r ih =>
    rw [List.map_cons, List.nodup_cons] at hn
    rw [get?]
    rcases List.mem_cons.1 h with rfl | h
    · rw [if_pos rfl]
    · have hk : k ∈ r.map Prod.fst := List.mem_map_of_mem (f := Prod.fst) h
      have hne : ¬ e.1 = k := fun he => hn.1 (he ▸ hk)
      rw [if_neg hne, ih hn.2 h]

/-- The entries do not change with the value that is there already. -/
theorem insert_of_get? {k : κ} {v : α} {l : List (κ × α)} (h : get? k l = some v) :
    insert k v l = l := by
  induction l with
  | nil => cases h
  | cons e r ih =>
    rw [get?] at h
    rw [insert]
    split at h
    · next he =>
      cases h
      rw [if_pos he, ← he]
    · next he => rw [if_neg he, ih h]

theorem erase_cons (k : κ) (e : κ × α) (r : List (κ × α)) :
    erase k (e :: r) = if e.1 = k then erase k r else e :: erase k r := by
  by_cases h : e.1 = k <;> simp [erase, h]

theorem get?_erase (j k : κ) (l : List (κ × α)) :
    get? j (erase k l) = if k = j then none else get? j l := by
  induction l with
  | nil => simp [erase, get?]
  | cons e r ih =>
    rw [erase_cons]
    by_cases h : e.1 = k
    · rw [if_pos h, ih]
      by_cases hj : k = j
      · simp [hj]
      · simp [get?, h, hj]
    · rw [if_neg h]
      by_cases hj : e.1 = j
      · have : ¬ k = j := fun hk => h (hj.trans hk.symm)
        simp [get?, hj, this]
      · simp [get?, hj, ih]

theorem erase_erase (k : κ) (l : List (κ × α)) : erase k (erase k l) = erase k l := by
  rw [erase, List.filter_eq_self]
  intro e he
  exact (List.mem_filter.1 he).2

/-- What is inserted at a key does not show in the entries of the others. -/
theorem erase_insert (k : κ) (v : α) (l : List (κ × α)) : erase k (insert k v l) = erase k l := by
  induction l with
  | nil => simp [insert, erase]
  | cons e r ih =>
    rw [insert]
    by_cases h : e.1 = k
    · rw [if_pos h, erase_cons, erase_cons, if_pos rfl, if_pos h]
    · rw [if_neg h, erase_cons, erase_cons, if_neg h, if_neg h, ih]

/-- Without an entry for the key the entries stay as they are. -/
theorem erase_of_get? {k : κ} {l : List (κ × α)} (h : get? k l = none) : erase k l = l := by
  induction l with
  | nil => rfl
  | cons e r ih =>
    rw [get?] at h
    by_cases he : e.1 = k
    · rw [if_pos he] at h
      cases h
    · rw [if_neg he] at h
      rw [erase_cons, if_neg he, ih h]

/-- What is in the entries after an insertion was inserted or was there before. -/
theorem mem_insert {k : κ} {v : α} {e : κ × α} {l : List (κ × α)} (h : e ∈ insert k v l) :
    e = (k, v) ∨ e ∈ l := by
  induction l with
  | nil => exact .inl (List.mem_singleton.1 h)
  | cons e' r ih =>
    rw [insert] at h
    split at h
    · rcases List.mem_cons.1 h with rfl | h
      · exact .inl rfl
      · exact .inr (.tail _ h)
    · rcases List.mem_cons.1 h with rfl | h
      · exact .inr (.head _)
      · rcases ih h with rfl | h
        · exact .inl rfl
        · exact .inr (.tail _ h)

theorem mem_merge {base later : List (κ × α)} {e : κ × α} (h : e ∈ merge base later) :
    e ∈ base ∨ e ∈ later := by
  induction later generalizing base with
  | nil => exact .inl h
  | cons f later ih =>
    have h : e ∈ merge (insert f.1 f.2 base) later := h
    rcases ih h with h | h
    · rcases mem_insert h with rfl | h
      · exact .inr (.head _)
      · exact .inl h
    · exact .inr (.tail _ h)

theorem mem_map_fst_insert {j k : κ} {v : α} {l : List (κ × α)} :
    j ∈ (insert k v l).map Prod.fst ↔ j = k ∨ j ∈ l.map Prod.fst := by
  induction l with
  | nil => simp [insert]
  | cons e r ih =>
    by_cases h : e.1 = k
    · simp [insert, h]
    · simp only [insert, h, if_false, List.map_cons, List.mem_cons, ih]
      constructor
      · rintro (h₁ | h₁ | h₁) <;> simp [h₁]
      · rintro (h₁ | h₁ | h₁) <;> simp [h₁]

theorem nodup_insert {k : κ} {v : α} {l : List (κ × α)} (h : (l.map Prod.fst).Nodup) :
    ((insert k v l).map Prod.fst).Nodup := by
  induction l with
  | nil => simp [insert]
  | cons e r ih =>
    rw [List.map_cons, List.nodup_cons] at h
    by_cases hk : e.1 = k
    · subst hk
      simpa [insert] using h
    · simp only [insert, hk, if_false, List.map_cons, List.nodup_cons]
      refine ⟨fun hm => ?_, ih h.2⟩
      rcases mem_map_fst_insert.1 hm with he | he
      · exact hk he
      · exact h.1 he

theorem nodup_erase {k : κ} {l : List (κ × α)} (h : (l.map Prod.fst).Nodup) :
    ((erase k l).map Prod.fst).Nodup :=
  h.sublist (List.filter_sublist.map _)

theorem nodup_merge {base later : List (κ × α)} (h : (base.map Prod.fst).Nodup) :
    ((merge base later).map Prod.fst).Nodup := by
  induction later generalizing base with
  | nil => exact h
  | cons e r ih => exact ih (nodup_insert h)

/-- A key that is not there yet goes to the end. -/
theorem insert_of_not_mem {k : κ} {v : α} {l : List (κ × α)} (h : k ∉ l.map Prod.fst) :
    insert k v l = l ++ [(k, v)] := by
  induction l with
  | nil => rfl
  | cons f s ih =>
    rw [List.map_cons, List.mem_cons, not_or] at h
    rw [insert, if_neg (Ne.symm h.1), ih h.2, List.cons_append]

/-- Entries with distinct keys are kept as they are. -/
theorem merge_append {base later : List (κ × α)}
    (h : ((base ++ later).map Prod.fst).Nodup) : merge base later = base ++ later := by
  induction later generalizing base with
  | nil => simp [merge]
  | cons e r ih =>
    have hn : e.1 ∉ base.map Prod.fst := by
      intro hm
      rw [List.map_append, List.nodup_append] at h
      exact h.2.2 _ hm _ (by simp) rfl
    have hb : merge base (e :: r) = merge (base ++ [e]) r := by
      rw [merge, List.foldl_cons, insert_of_not_mem hn, merge]
    rw [hb, ih (by simpa using h), List.append_assoc, List.singleton_append]

theorem get?_append (k : κ) (l later : List (κ × α)) :
    get? k (l ++ later) = (get? k l).or (get? k later) := by
  induction l with
  | nil => rfl
  | cons e r ih =>
    rw [List.cons_append, get?, get?]
    split
    · rfl
    · exact ih

/-- Of the values that are inserted at a key the last one is found. -/
theorem get?_merge (k : κ) (base later : List (κ × α)) :
    get? k (merge base later) = (get? k later.reverse).or (get? k base) := by
  induction later generalizing base with
  | nil => rfl
  | cons e later ih =>
    have hmerge : merge base (e :: later) = merge (insert e.1 e.2 base) later := rfl
    rw [hmerge, ih, get?_insert, List.reverse_cons, get?_append, Option.or_assoc]
    congr 1
    by_cases h : e.1 = k <;> simp [get?, h]

theorem get?_eq_none_iff {k : κ} {l : List (κ × α)} :
    get? k l = none ↔ k ∉ l.map Prod.fst := by
  induction l with
  | nil => simp [get?]
  | cons e r ih =>
    rw [get?, List.map_cons, List.mem_cons, not_or]
    by_cases h : e.1 = k
    · simp [h]
    · simp [h, ih, Ne.symm h]

/-- The order of entries with distinct keys does not matter. -/
theorem get?_reverse {l : List (κ × α)} (hn : (l.map Prod.fst).Nodup) (k : κ) :
    get? k l.reverse = get? k l := by
  have hreverse : (l.reverse.map Prod.fst).Nodup :=
    (l.reverse_perm.map Prod.fst).nodup_iff.2 hn
  apply Option.ext
  intro v
  constructor
  · intro h
    exact get?_of_mem hn (List.mem_reverse.1 (mem_of_get? h))
  · intro h
    exact get?_of_mem hreverse (List.mem_reverse.2 (mem_of_get? h))

theorem get?_map {β : Type} (f : α → β) (k : κ) (l : List (κ × α)) :
    get? k (l.map fun e => (e.1, f e.2)) = (get? k l).map f := by
  induction l with
  | nil => rfl
  | cons e r ih =>
    rw [List.map_cons, get?, get?]
    split
    · rfl
    · exact ih

/-- What is looked up under a key that is not inserted is what was there. -/
theorem get?_merge_of_not_mem {k : κ} {base later : List (κ × α)}
    (h : k ∉ later.map Prod.fst) : get? k (merge base later) = get? k base := by
  have hlater : get? k later.reverse = none := by
    rwa [get?_eq_none_iff, List.map_reverse, List.mem_reverse]
  rw [get?_merge, hlater, Option.none_or]

/-- What is inserted under distinct keys is found before what was there. -/
theorem get?_merge_of_nodup {base later : List (κ × α)} (hn : (later.map Prod.fst).Nodup) (k : κ) :
    get? k (merge base later) = (get? k later).or (get? k base) := by
  rw [get?_merge, get?_reverse hn]

/-- What is looked up under a key that is inserted once is what was inserted there. -/
theorem get?_merge_of_get? {k : κ} {v : α} {base later : List (κ × α)}
    (hn : (later.map Prod.fst).Nodup) (h : get? k later = some v) :
    get? k (merge base later) = some v := by
  rw [get?_merge_of_nodup hn, h, Option.some_or]

/-- A key that is there already keeps its place. -/
theorem map_fst_insert_of_mem {k : κ} {v : α} {l : List (κ × α)} (h : k ∈ l.map Prod.fst) :
    (insert k v l).map Prod.fst = l.map Prod.fst := by
  induction l with
  | nil => cases h
  | cons e r ih =>
    rw [insert]
    by_cases he : e.1 = k
    · rw [if_pos he, List.map_cons, List.map_cons, he]
    · have hr : k ∈ r.map Prod.fst := (List.mem_cons.1 h).resolve_left (Ne.symm he)
      rw [if_neg he, List.map_cons, List.map_cons, ih hr]

/-- The keys that are new come in the order in which they are inserted first. -/
theorem map_fst_merge [BEq κ] [LawfulBEq κ] (base later : List (κ × α)) :
    (merge base later).map Prod.fst =
      base.map Prod.fst ++
        ((later.map Prod.fst).filter fun k => k ∉ base.map Prod.fst).eraseDups := by
  induction later generalizing base with
  | nil => simp [merge]
  | cons e later ih =>
    have hmerge : merge base (e :: later) = merge (insert e.1 e.2 base) later := rfl
    rw [hmerge, ih, List.map_cons]
    by_cases h : e.1 ∈ base.map Prod.fst
    · rw [map_fst_insert_of_mem h, List.filter_cons_of_neg (by simpa using h)]
    · have hfilter : ((later.map Prod.fst).filter fun k => k ∉ (base ++ [e]).map Prod.fst) =
          (later.map Prod.fst).filter fun k => !k == e.1 && decide (k ∉ base.map Prod.fst) := by
        apply List.filter_congr
        intro k _
        simp only [List.map_append, List.mem_append, List.map_cons, List.map_nil,
          List.mem_singleton, not_or]
        by_cases hk : k = e.1 <;> simp [hk]
      rw [insert_of_not_mem h, List.filter_cons_of_pos (by simpa using h), List.eraseDups_cons,
        List.filter_filter, hfilter, List.map_append, List.append_assoc]
      rfl

end Entries

/-! ### Maps -/

/-- A map that keeps the order in which its keys were first inserted. -/
structure OrderedMap (κ α : Type) where
  /-- The keys with their values, in order. -/
  entries : List (κ × α)
  /-- No key occurs twice. -/
  nodup : (entries.map Prod.fst).Nodup

namespace OrderedMap

instance [DecidableEq α] : DecidableEq (OrderedMap κ α) := fun m n =>
  if h : m.entries = n.entries then
    isTrue (by cases m; cases n; simp_all)
  else isFalse fun e => h (e ▸ rfl)

omit [DecidableEq κ] in
@[ext] theorem ext {m n : OrderedMap κ α} (h : m.entries = n.entries) : m = n := by
  cases m
  cases n
  simp_all

/-- The map without keys. -/
def empty : OrderedMap κ α := ⟨[], by simp⟩

instance : EmptyCollection (OrderedMap κ α) := ⟨empty⟩

/-- The value at a key. -/
def get? (m : OrderedMap κ α) (k : κ) : Option α :=
  Entries.get? k m.entries

/-- The map with the value at the key. -/
def insert (m : OrderedMap κ α) (k : κ) (v : α) : OrderedMap κ α :=
  ⟨Entries.insert k v m.entries, Entries.nodup_insert m.nodup⟩

/-- The map without the key. -/
def erase (m : OrderedMap κ α) (k : κ) : OrderedMap κ α :=
  ⟨Entries.erase k m.entries, Entries.nodup_erase m.nodup⟩

/-- The map with the entries of the list inserted from the left. -/
def insertAll (m : OrderedMap κ α) (entries : List (κ × α)) : OrderedMap κ α :=
  ⟨Entries.merge m.entries entries, Entries.nodup_merge m.nodup⟩

/-- The map of a list of entries; of two values for a key the later counts. -/
def ofList (entries : List (κ × α)) : OrderedMap κ α :=
  (empty : OrderedMap κ α).insertAll entries

/-- The keys in order. -/
def keys (m : OrderedMap κ α) : List κ :=
  m.entries.map Prod.fst

theorem get?_insert (m : OrderedMap κ α) (j k : κ) (v : α) :
    (m.insert k v).get? j = if k = j then some v else m.get? j :=
  Entries.get?_insert j k v m.entries

theorem get?_erase (m : OrderedMap κ α) (j k : κ) :
    (m.erase k).get? j = if k = j then none else m.get? j :=
  Entries.get?_erase j k m.entries

theorem get?_eq_some_iff {m : OrderedMap κ α} {k : κ} {v : α} :
    m.get? k = some v ↔ (k, v) ∈ m.entries :=
  ⟨Entries.mem_of_get?, Entries.get?_of_mem m.nodup⟩

theorem mem_keys_iff {m : OrderedMap κ α} {k : κ} : k ∈ m.keys ↔ ∃ v, m.get? k = some v := by
  constructor
  · intro h
    obtain ⟨⟨k, v⟩, he, rfl⟩ := List.mem_map.1 h
    exact ⟨v, get?_eq_some_iff.2 he⟩
  · rintro ⟨v, hv⟩
    exact List.mem_map_of_mem (f := Prod.fst) (get?_eq_some_iff.1 hv)

/-- What is looked up does not depend on the order of the entries. -/
theorem get?_eq_of_perm {m n : OrderedMap κ α} (h : m.entries.Perm n.entries) (k : κ) :
    m.get? k = n.get? k := by
  refine Option.ext fun v => ?_
  rw [get?_eq_some_iff, get?_eq_some_iff]
  exact h.mem_iff

/-- After an insertion the key has the value, and the other entries are as before. -/
theorem mem_insert_iff {m : OrderedMap κ α} {k : κ} {v : α} {e : κ × α} :
    e ∈ (m.insert k v).entries ↔ e = (k, v) ∨ e.1 ≠ k ∧ e ∈ m.entries := by
  obtain ⟨j, w⟩ := e
  rw [← get?_eq_some_iff, ← get?_eq_some_iff, get?_insert]
  by_cases h : k = j
  · subst h
    simp [eq_comm]
  · have hne : j ≠ k := Ne.symm h
    simp [h, hne]

/-- After an erasure the entries of the other keys are there. -/
theorem mem_erase_iff {m : OrderedMap κ α} {k : κ} {e : κ × α} :
    e ∈ (m.erase k).entries ↔ e.1 ≠ k ∧ e ∈ m.entries := by
  obtain ⟨j, w⟩ := e
  rw [← get?_eq_some_iff, ← get?_eq_some_iff, get?_erase]
  by_cases h : k = j
  · subst h
    simp
  · have hne : j ≠ k := Ne.symm h
    simp [h, hne]

/-- A map is made again from its entries. -/
theorem ofList_entries (m : OrderedMap κ α) : ofList m.entries = m :=
  ext (@Entries.merge_append κ α _ [] m.entries m.nodup)

end OrderedMap

end CodingPolicy
