/-
CodingPolicy/Proofs/Extraction.lean

What the search for options takes out of the arguments.  An option that was
found can be put back (`Options.PutBack`): its name, with its value behind it if it
takes one, goes to a place that the search for it comes to.  Since one option is
taken after the other, and taking one out can make neighbours of arguments that
were none, the options have to be put back in the opposite order
(`Options.Rebuilt`), the last declared first.

Main result: the options leave just those arguments over from which the given
ones can be rebuilt (`Options.leftover_iff_rebuilt`).  Nothing is lost on the way
and nothing is invented: what is left over keeps its order, and with what was found
it makes up the arguments.
-/
import CodingPolicy.Proofs.Arguments

namespace CodingPolicy

/-- What is found of an option that is not there. -/
def OptionSpec.unset (o : OptionSpec) : OptionValue :=
  if o.takesValue then .absent else .flag false

/-- The arguments that give an option: its name, and its value if there is one. -/
def OptionSpec.block? (o : OptionSpec) : OptionValue → Option (List Text)
  | .text value => some [o.name, value]
  | .flag true => some [o.name]
  | _ => none

theorem OptionSpec.block?_unset (o : OptionSpec) : o.block? o.unset = none := by
  unfold unset
  split <;> rfl

namespace Options

variable {name value : Text} {before after args rest : List Text}
variable {o : OptionSpec} {specs : List OptionSpec} {v : OptionValue} {found : List OptionValue}

/-! ### The search for a name -/

/-- The arguments that are searched: those before the first double dash. -/
def searched (args : List Text) : List Text :=
  args.takeWhile (· ≠ terminator)

/-- The search for a name goes past these arguments. -/
structure Passes (name : Text) (before : List Text) : Prop where
  /-- None of them is the name. -/
  unnamed : name ∉ before
  /-- None of them ends the search. -/
  unended : terminator ∉ before

theorem searched_cons {a : Text} (h : a ≠ terminator) :
    searched (a :: rest) = a :: searched rest := by
  simp [searched, h]

theorem passes_cons {a : Text} (h : Passes name (a :: before)) :
    a ≠ name ∧ a ≠ terminator ∧ Passes name before := by
  obtain ⟨hn, he⟩ := h
  rw [List.mem_cons, not_or] at hn he
  exact ⟨Ne.symm hn.1, Ne.symm he.1, hn.2, he.2⟩

/-- **A name is not met, or it is met for the first time after arguments that the
search goes past.** -/
theorem not_met_or_met (name : Text) (args : List Text) :
    name ∉ searched args ∨
      ∃ before after, args = before ++ name :: after ∧ Passes name before := by
  induction args with
  | nil => exact .inl (List.not_mem_nil)
  | cons a r ih =>
    by_cases he : a = terminator
    · left
      simp [searched, he]
    · by_cases hn : a = name
      · subst hn
        exact .inr ⟨[], r, rfl, List.not_mem_nil, List.not_mem_nil⟩
      · rcases ih with ih | ⟨before, after, rfl, hp⟩
        · left
          rw [searched_cons he, List.mem_cons, not_or]
          exact ⟨Ne.symm hn, ih⟩
        · right
          refine ⟨a :: before, after, rfl, ?_, ?_⟩
          · simp [Ne.symm hn, hp.unnamed]
          · simp [Ne.symm he, hp.unended]

theorem takeFlag_of_not_met (h : name ∉ searched args) : takeFlag name args = (false, args) := by
  induction args with
  | nil => rfl
  | cons a r ih =>
    by_cases he : a = terminator
    · rw [takeFlag, if_pos he]
    · rw [searched_cons he, List.mem_cons, not_or] at h
      rw [takeFlag, if_neg he, if_neg (Ne.symm h.1), ih h.2]

theorem takeFlag_append (hname : name ≠ terminator) (h : Passes name before) :
    takeFlag name (before ++ name :: after) = (true, before ++ after) := by
  induction before with
  | nil => rw [List.nil_append, takeFlag, if_neg hname, if_pos rfl, List.nil_append]
  | cons a before ih =>
    obtain ⟨hn, he, h⟩ := passes_cons h
    rw [List.cons_append, takeFlag, if_neg he, if_neg hn, ih h, List.cons_append]

/-- The search for a value goes past an argument of neither kind. -/
theorem takeValue_cons {a : Text} (he : a ≠ terminator) (hn : a ≠ name) :
    takeValue name (a :: rest) = (takeValue name rest).map fun p => (p.1, a :: p.2) := by
  rw [takeValue.eq_def]
  simp only [he, hn, if_false]
  rcases takeValue name rest with f | p <;> rfl

theorem takeValue_of_not_met (h : name ∉ searched args) :
    takeValue name args = .ok (none, args) := by
  induction args with
  | nil => rfl
  | cons a r ih =>
    by_cases he : a = terminator
    · rw [takeValue.eq_def]
      simp only [he, if_true]
    · rw [searched_cons he, List.mem_cons, not_or] at h
      rw [takeValue_cons he (Ne.symm h.1), ih h.2]
      rfl

theorem takeValue_append (hname : name ≠ terminator) (h : Passes name before) :
    takeValue name (before ++ name :: value :: after) = .ok (some value, before ++ after) := by
  induction before with
  | nil => simp [takeValue, hname]
  | cons a before ih =>
    obtain ⟨hn, he, h⟩ := passes_cons h
    rw [List.cons_append, takeValue_cons he hn, ih h]
    rfl

/-- A name at the very end has no value. -/
theorem takeValue_concat (hname : name ≠ terminator) (h : Passes name before) :
    takeValue name (before ++ [name]) = .error (.invalidArgument (.valueMissing name)) := by
  induction before with
  | nil => simp [takeValue, hname]
  | cons a before ih =>
    obtain ⟨hn, he, h⟩ := passes_cons h
    rw [List.cons_append, takeValue_cons he hn, ih h]
    rfl

/-! ### One option -/

/-- What was found of an option, put back among the arguments that are left. -/
inductive PutBack (o : OptionSpec) : OptionValue → List Text → List Text → Prop where
  /-- The name and the value go to a place that the search comes to. -/
  | value {value : Text} {before after : List Text} (hv : o.takesValue = true)
      (hp : Passes o.name before) :
      PutBack o (.text value) (before ++ after) (before ++ o.name :: value :: after)
  /-- The name of a flag goes to a place that the search comes to. -/
  | flag {before after : List Text} (hv : o.takesValue = false) (hp : Passes o.name before) :
      PutBack o (.flag true) (before ++ after) (before ++ o.name :: after)
  /-- An option that is not there is not required, and its name is not met. -/
  | absent {args : List Text} (hr : o.required = false) (hn : o.name ∉ searched args) :
      PutBack o o.unset args args

theorem takeOption_of_not_met (h : o.name ∉ searched args) :
    takeOption o args = if o.required then .error (missing o) else .ok (o.unset, args) := by
  unfold takeOption OptionSpec.unset
  cases hv : o.takesValue with
  | true => simp only [if_true, takeValue_of_not_met h]
  | false => simp only [Bool.false_eq_true, if_false, takeFlag_of_not_met h]

theorem takeOption_of_putBack (hname : o.name ≠ terminator) (h : PutBack o v rest args) :
    takeOption o args = .ok (v, rest) := by
  cases h with
  | value hv hp => simp only [takeOption, hv, if_true, takeValue_append hname hp]
  | flag hv hp =>
    simp only [takeOption, hv, Bool.false_eq_true, if_false, takeFlag_append hname hp]
  | absent hr hn => simp [takeOption_of_not_met hn, hr]

/-- **An option is taken out just where it can be put back.** -/
theorem takeOption_eq_ok (hname : o.name ≠ terminator) :
    takeOption o args = .ok (v, rest) ↔ PutBack o v rest args := by
  refine ⟨fun h => ?_, takeOption_of_putBack hname⟩
  rcases not_met_or_met o.name args with hn | ⟨before, after, rfl, hp⟩
  · rw [takeOption_of_not_met hn] at h
    cases hr : o.required with
    | true => simp [hr] at h
    | false =>
      simp only [hr, Bool.false_eq_true, if_false, Except.ok.injEq, Prod.mk.injEq] at h
      obtain ⟨rfl, rfl⟩ := h
      exact .absent hr hn
  · cases hv : o.takesValue with
    | false =>
      have hput : PutBack o (.flag true) (before ++ after) (before ++ o.name :: after) :=
        .flag hv hp
      cases h.symm.trans (takeOption_of_putBack hname hput)
      exact hput
    | true =>
      rcases after with - | ⟨value, after⟩
      · -- the value that the name asks for is not there
        simp [takeOption, hv, takeValue_concat hname hp] at h
      · have hput : PutBack o (.text value) (before ++ after)
            (before ++ o.name :: value :: after) := .value hv hp
        cases h.symm.trans (takeOption_of_putBack hname hput)
        exact hput

theorem PutBack.sublist (h : PutBack o v rest args) : rest.Sublist args := by
  cases h with
  | value hv hp => exact (List.sublist_append_right [_, _] _).append_left _
  | flag hv hp => exact (List.sublist_cons_self _ _).append_left _
  | absent hr hn => exact .refl _

theorem PutBack.perm (h : PutBack o v rest args) :
    args.Perm (rest ++ (o.block? v).toList.flatten) := by
  cases h with
  | @value value before after hv hp =>
    show (before ++ ([o.name, value] ++ after)).Perm ((before ++ after) ++ [o.name, value])
    rw [List.append_assoc]
    exact List.perm_append_comm.append_left before
  | @flag before after hv hp =>
    show (before ++ ([o.name] ++ after)).Perm ((before ++ after) ++ [o.name])
    rw [List.append_assoc]
    exact List.perm_append_comm.append_left before
  | absent hr hn => simp [o.block?_unset]

/-! ### All options -/

/-- The arguments are rebuilt from what is left over by putting back what was found
of each option, the last declared first. -/
inductive Rebuilt : List OptionSpec → List OptionValue → List Text → List Text → Prop where
  /-- Without options nothing is put back. -/
  | nil {rest : List Text} : Rebuilt [] [] rest rest
  /-- The options declared behind are put back before. -/
  | cons {o : OptionSpec} {specs : List OptionSpec} {v : OptionValue} {found : List OptionValue}
      {rest between args : List Text} (hs : Rebuilt specs found rest between)
      (ho : PutBack o v between args) : Rebuilt (o :: specs) (v :: found) rest args

/-- The blocks of arguments that give the options that are there. -/
def blocks (specs : List OptionSpec) (found : List OptionValue) : List (List Text) :=
  (specs.zip found).filterMap fun e => e.1.block? e.2

theorem blocks_cons (o : OptionSpec) (specs : List OptionSpec) (v : OptionValue)
    (found : List OptionValue) :
    blocks (o :: specs) (v :: found) = (o.block? v).toList ++ blocks specs found := by
  unfold blocks
  rw [List.zip_cons_cons, List.filterMap_cons]
  rcases o.block? v with - | block <;> rfl

theorem takeAll_of_rebuilt (ht : terminator ∉ specs.map OptionSpec.name)
    (h : Rebuilt specs found rest args) (values : OrderedMap Text OptionValue) :
    takeAll values specs args =
      .ok (values.insertAll ((specs.map OptionSpec.name).zip found), rest) := by
  induction h generalizing values with
  | nil => rfl
  | cons hs ho ih =>
    rw [List.map_cons, List.mem_cons, not_or] at ht
    rw [takeAll, takeOption_of_putBack (Ne.symm ht.1) ho]
    exact ih ht.2 _

/-- **All options are taken out just where they can be put back.** -/
theorem exists_rebuilt (ht : terminator ∉ specs.map OptionSpec.name)
    {values values' : OrderedMap Text OptionValue}
    (h : takeAll values specs args = .ok (values', rest)) :
    ∃ found, Rebuilt specs found rest args := by
  induction specs generalizing values args with
  | nil =>
    cases h
    exact ⟨[], .nil⟩
  | cons o specs ih =>
    rw [List.map_cons, List.mem_cons, not_or] at ht
    rw [takeAll] at h
    rcases e : takeOption o args with f | ⟨v, between⟩ <;> simp only [e] at h
    · cases h
    · obtain ⟨found, hs⟩ := ih ht.2 h
      exact ⟨v :: found, .cons hs ((takeOption_eq_ok (Ne.symm ht.1)).1 e)⟩

theorem Rebuilt.length_eq (h : Rebuilt specs found rest args) : found.length = specs.length := by
  induction h with
  | nil => rfl
  | cons hs ho ih => rw [List.length_cons, List.length_cons, ih]

/-- What is left over stands among the arguments in the same order. -/
theorem Rebuilt.sublist (h : Rebuilt specs found rest args) : rest.Sublist args := by
  induction h with
  | nil => exact .refl _
  | cons hs ho ih => exact ih.trans ho.sublist

/-- What is left over and what was found make up the arguments. -/
theorem Rebuilt.perm (h : Rebuilt specs found rest args) :
    args.Perm (rest ++ (blocks specs found).flatten) := by
  induction h with
  | nil => simp [blocks]
  | @cons o specs v found rest between args hs ho ih =>
    rw [blocks_cons, List.flatten_append]
    -- what was found of this option stands at the end, behind what was found of the others
    have hfound : ((rest ++ (blocks specs found).flatten) ++ (o.block? v).toList.flatten).Perm
        (rest ++ ((o.block? v).toList.flatten ++ (blocks specs found).flatten)) := by
      rw [List.append_assoc]
      exact List.perm_append_comm.append_left rest
    exact ho.perm.trans ((ih.append_right _).trans hfound)

/-! ### How the options end -/

/-- An option that is not taken out is required and not met, or its value is missing. -/
theorem failure_of_takeOption (hname : o.name ≠ terminator) {f : Failure}
    (h : takeOption o args = .error f) :
    f = missing o ∨ f = .invalidArgument (.valueMissing o.name) := by
  rcases not_met_or_met o.name args with hn | ⟨before, after, rfl, hp⟩
  · rw [takeOption_of_not_met hn] at h
    split at h <;> cases h
    exact .inl rfl
  · cases hv : o.takesValue with
    | false => cases h.symm.trans (takeOption_of_putBack hname (.flag hv hp))
    | true =>
      rcases after with - | ⟨value, after⟩
      · simp only [takeOption, hv, if_true, takeValue_concat hname hp] at h
        cases h
        exact .inr rfl
      · cases h.symm.trans (takeOption_of_putBack hname (.value hv hp))

theorem takeAll_ne_tooMany (ht : terminator ∉ specs.map OptionSpec.name)
    (values : OrderedMap Text OptionValue) (args rest : List Text) :
    takeAll values specs args ≠ .error (.usage (.tooManyArguments rest)) := by
  intro h
  induction specs generalizing values args with
  | nil => cases h
  | cons o specs ih =>
    rw [List.map_cons, List.mem_cons, not_or] at ht
    rw [takeAll] at h
    rcases e : takeOption o args with f | ⟨v, between⟩ <;> simp only [e] at h
    · rcases failure_of_takeOption (Ne.symm ht.1) e with rfl | rfl <;> cases h
    · exact ih ht.2 _ _ h

/-- What was found of options of different names is kept in the order of the declarations. -/
theorem entries_insertAll (hd : (specs.map OptionSpec.name).Nodup)
    (hl : found.length = specs.length) :
    (OrderedMap.empty.insertAll ((specs.map OptionSpec.name).zip found)).entries =
      (specs.map OptionSpec.name).zip found := by
  have hfst : (((specs.map OptionSpec.name).zip found).map Prod.fst).Nodup := by
    rwa [List.map_fst_zip (by simp [hl])]
  exact @Entries.merge_append Text OptionValue _ [] _ hfst

/-- **The options leave just those arguments over from which the given ones can be
rebuilt.**  There are values, in the order of the declarations, if nothing is left
over, and too many arguments otherwise.  What is left over stands among the
arguments in the same order, and with the names and the values of the options that
are there it makes up the arguments. -/
theorem leftover_iff_rebuilt (hd : (specs.map OptionSpec.name).Nodup)
    (ht : terminator ∉ specs.map OptionSpec.name) (args : List Text) :
    (∀ values, parse specs args = .ok values ↔
        ∃ found, Rebuilt specs found [] args ∧
          values.entries = (specs.map OptionSpec.name).zip found) ∧
      (∀ rest, parse specs args = .error (.usage (.tooManyArguments rest)) ↔
        rest ≠ [] ∧ ∃ found, Rebuilt specs found rest args) ∧
      ∀ found rest, Rebuilt specs found rest args →
        rest.Sublist args ∧ args.Perm (rest ++ (blocks specs found).flatten) := by
  refine ⟨fun values => ⟨fun h => ?_, ?_⟩, fun rest => ⟨fun h => ?_, ?_⟩, ?_⟩
  · have htake := takeAll_of_parse h
    obtain ⟨found, hrebuilt⟩ := exists_rebuilt ht htake
    cases htake.symm.trans (takeAll_of_rebuilt ht hrebuilt .empty)
    exact ⟨found, hrebuilt, entries_insertAll hd hrebuilt.length_eq⟩
  · rintro ⟨found, hrebuilt, hentries⟩
    rw [parse, takeAll_of_rebuilt ht hrebuilt]
    refine congrArg Except.ok (OrderedMap.ext ?_)
    rw [hentries, entries_insertAll hd hrebuilt.length_eq]
  · unfold parse at h
    split at h
    · next f e =>
      cases h
      exact absurd e (takeAll_ne_tooMany ht _ _ _)
    · cases h
    · next values leftover hne e =>
      cases h
      exact ⟨hne, exists_rebuilt ht e⟩
  · rintro ⟨hne, found, hrebuilt⟩
    obtain ⟨a, rest, rfl⟩ := List.exists_cons_of_ne_nil hne
    rw [parse, takeAll_of_rebuilt ht hrebuilt]
  · intro found rest hrebuilt
    exact ⟨hrebuilt.sublist, hrebuilt.perm⟩

/-- An option whose name and value are parted by another option: the one declared
first is taken out first, and then they are neighbours.  Behind the double dash
nothing is taken. -/
theorem leftover_iff_rebuilt_parted :
    let specs : List OptionSpec :=
      [{ name := "-p".text }, { name := "-v".text, required := false }]
    let args := ["-v".text, "-p".text, "x".text, "y".text, "--".text, "-p".text]
    let rest := ["--".text, "-p".text]
    (specs.map OptionSpec.name).Nodup ∧ terminator ∉ specs.map OptionSpec.name ∧
      parse specs args = .error (.usage (.tooManyArguments rest)) ∧
      ∃ found, Rebuilt specs found rest args ∧ rest.Sublist args ∧
        args.Perm (rest ++ (blocks specs found).flatten) := by
  intro specs args rest
  have hd : (specs.map OptionSpec.name).Nodup := by decide
  have ht : terminator ∉ specs.map OptionSpec.name := by decide
  obtain ⟨-, hleftover, hmake⟩ := leftover_iff_rebuilt hd ht args
  have hparse : parse specs args = .error (.usage (.tooManyArguments rest)) := rfl
  obtain ⟨-, found, hrebuilt⟩ := (hleftover rest).1 hparse
  exact ⟨hd, ht, hparse, found, hrebuilt, hmake found rest hrebuilt⟩

end Options

end CodingPolicy
