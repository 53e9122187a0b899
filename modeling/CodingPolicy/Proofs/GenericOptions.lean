/-
CodingPolicy/Proofs/GenericOptions.lean

Generic options as they are written.  A generic option is written in one of four
ways (`GenericOptions.Given`), and arguments are made up of some of them and of a
rest that looks like none (`GenericOptions.Splits`).  What the options come to is
said without going through the arguments: the configuration file is the one that
is named last, and every key has the value of its last definition, at the place of its
first (`GenericOptions.Decoded`).

Main result: arguments are taken just where they split in this way, and then for
what the options come to (`GenericOptions.parse_decodes`).  A name of a file whose
tilde cannot be expanded stops the reading in its own way, and a tilde is found
behind a leading dot as well (`GenericOptions.not_always_decoded`).
-/
import CodingPolicy.Proofs.Settings
import CodingPolicy.Proofs.Spelling

namespace CodingPolicy.Config.GenericOptions

variable {homes : Homes} {o o' : GenericOptions} {args rest : List Text} {f : Failure}

/-! ### Options as they are written -/

/-- A generic option as it is written. -/
inductive Given where
  /-- The configuration file. -/
  | file (name : Text)
  /-- The file system. -/
  | fs (uri : Text)
  /-- A single setting, which may be joined to its option. -/
  | setting (key value : Text) (joined : Bool)
  deriving DecidableEq

namespace Given

/-- The arguments that the option is written with. -/
def tokens : Given → List Text
  | file name => [fileOption, name]
  | fs uri => [fsOption, uri]
  | setting key value false => [settingOption, key ++ .char '=' :: value]
  | setting key value true => [settingOption ++ (key ++ .char '=' :: value)]

/-- The configuration file that the option names. -/
def file? : Given → Option Text
  | file name => some name
  | _ => none

/-- The key that the option defines, with its value. -/
def definition? : Given → Option (Text × Text)
  | file _ => none
  | fs uri => some ("default_fs".text, uri)
  | setting key value _ => some (Text.trim key, value)

/-- The option is well written: the name of a file can be expanded, and a key is
there and holds no equals sign. -/
def Sound (homes : Homes) : Given → Prop
  | file name => ∃ p, (FilePath.ofText name).expandHome homes = .ok p
  | fs _ => True
  | setting key _ _ => Text.trim key ≠ [] ∧ .char '=' ∉ key

/-- A name that is not shown with a tilde in front can be expanded. -/
theorem sound_file {name : Text} (homes : Homes)
    (h : (FilePath.ofText name).render.head? ≠ some (.char '~')) : (file name).Sound homes :=
  ⟨_, FilePath.expandHome_eq_self h⟩

end Given

/-- The arguments start with none of the generic options. -/
inductive Stops : List Text → Prop where
  /-- There are no arguments. -/
  | nil : Stops []
  /-- The first argument is no generic option, and none is joined in it. -/
  | cons {a : Text} {r : List Text} (ho : a ∉ [fileOption, settingOption, fsOption])
      (hj : ¬ settingOption <+: a) : Stops (a :: r)

/-- The arguments are generic options, well written, and a rest that looks like none. -/
structure Splits (homes : Homes) (args : List Text) (given : List Given) (rest : List Text) :
    Prop where
  /-- The arguments are those of the options with the rest behind them. -/
  args : args = given.flatMap Given.tokens ++ rest
  /-- The options are well written. -/
  sound : ∀ g ∈ given, g.Sound homes
  /-- The rest looks like no generic option. -/
  stops : Stops rest

/-- What the options come to. -/
structure Decoded (homes : Homes) (given : List Given) (o : GenericOptions) : Prop where
  /-- The configuration file is the one that is named last, expanded. -/
  configFile : o.configFile = (given.filterMap Given.file?).getLast?.bind fun name =>
    ((FilePath.ofText name).expandHome homes).toOption
  /-- The keys are in the order of their first definitions. -/
  keys : o.overrides.keys = ((given.filterMap Given.definition?).map Prod.fst).eraseDups
  /-- A key has the value of its last definition. -/
  values : ∀ key, o.overrides.get? key =
    Entries.get? key (given.filterMap Given.definition?).reverse

/-! ### What the options come to -/

/-- The options with one more. -/
def added (homes : Homes) (o : GenericOptions) (g : Given) : GenericOptions where
  configFile := match g.file? with
    | some name => ((FilePath.ofText name).expandHome homes).toOption
    | none => o.configFile
  overrides := o.overrides.insertAll g.definition?.toList

theorem configFile_foldl_added (given : List Given) (o : GenericOptions) :
    (given.foldl (added homes) o).configFile =
      match (given.filterMap Given.file?).getLast? with
      | some name => ((FilePath.ofText name).expandHome homes).toOption
      | none => o.configFile := by
  induction given generalizing o with
  | nil => rfl
  | cons g given ih =>
    rw [List.foldl_cons, ih, List.filterMap_cons]
    rcases e : g.file? with - | name
    · simp [added, e]
    · simp only [added, e]
      rw [List.getLast?_cons]
      rcases (given.filterMap Given.file?).getLast? with - | later <;> rfl

theorem entries_foldl_added (given : List Given) (o : GenericOptions) :
    (given.foldl (added homes) o).overrides.entries =
      Entries.merge o.overrides.entries (given.filterMap Given.definition?) := by
  induction given generalizing o with
  | nil => rfl
  | cons g given ih =>
    rw [List.foldl_cons, ih, List.filterMap_cons]
    rcases e : g.definition? with - | definition
    · simp [added, e, OrderedMap.insertAll, Entries.merge]
    · simp [added, e, OrderedMap.insertAll, Entries.merge]

/-- **Options added one after the other come to what is said of them.** -/
theorem decoded_foldl_added (given : List Given) :
    Decoded homes given (given.foldl (added homes) {}) where
  configFile := by
    rw [configFile_foldl_added]
    rcases (given.filterMap Given.file?).getLast? with - | name <;> rfl
  keys := by
    rw [OrderedMap.keys, entries_foldl_added, Entries.map_fst_merge]
    show [] ++ (List.filter _ _).eraseDups = _
    rw [List.nil_append, List.filter_eq_self.2]
    intro key _
    rfl
  values := by
    intro key
    rw [OrderedMap.get?, entries_foldl_added, Entries.get?_merge]
    exact Option.or_none

/-! ### Options that are taken -/

theorem define_of_sound {key value : Text} (hk : Text.trim key ≠ []) (he : .char '=' ∉ key) :
    o.define (key ++ .char '=' :: value) =
      .ok { o with overrides := o.overrides.insert (Text.trim key) value } := by
  have hcut : Text.cutAt [.char '='] (key ++ .char '=' :: value) = some (key, value) := by
    have h := Text.cutAt_append he [] value
    rwa [List.append_assoc] at h
  rw [define, hcut]
  exact if_neg hk

/-- What defines a setting is a key that is there, the first equals sign, and the value. -/
theorem define_eq_ok {definition : Text} (h : o.define definition = .ok o') :
    ∃ key value, definition = key ++ .char '=' :: value ∧ Text.trim key ≠ [] ∧ .char '=' ∉ key ∧
      o' = { o with overrides := o.overrides.insert (Text.trim key) value } := by
  unfold define at h
  split at h
  · next key value hcut =>
    split at h
    · cases h
    · next hk =>
      cases h
      have he := Text.eq_of_cutAt hcut
      rw [List.append_assoc] at he
      exact ⟨key, value, he, hk, Text.not_mem_of_cutAt hcut, rfl⟩
  · cases h

theorem joined?_append {definition : Text} (h : definition ≠ []) :
    joined? (settingOption ++ definition) = some definition := by
  have hp : settingOption.isPrefixOf (settingOption ++ definition) = true :=
    List.isPrefixOf_iff_prefix.2 (List.prefix_append ..)
  have hl : settingOption.length < (settingOption ++ definition).length := by
    rw [List.length_append]
    exact Nat.lt_add_of_pos_right (List.length_pos_iff.2 h)
  rw [joined?, if_pos ⟨hp, hl⟩, List.drop_left]

theorem joined?_eq_some {a definition : Text} (h : joined? a = some definition) :
    a = settingOption ++ definition := by
  unfold joined? at h
  split at h
  · next hj =>
    cases h
    obtain ⟨definition, rfl⟩ := List.isPrefixOf_iff_prefix.1 hj.1
    rw [List.drop_left]
  · cases h

/-- A setting that is joined to its option does not look like an option alone. -/
theorem isOption_append {definition : Text} (h : definition ≠ []) :
    isOption (settingOption ++ definition) = false := by
  obtain ⟨c, r, rfl⟩ := List.exists_cons_of_ne_nil h
  -- it differs from every option within its first three characters
  rfl

theorem isOption_iff {a : Text} :
    isOption a = true ↔ a ∈ [fileOption, settingOption, fsOption] := by
  simp [isOption, or_assoc]

/-- **An option that is well written is taken.** -/
theorem take_tokens {g : Given} (h : g.Sound homes) :
    take homes o g.tokens = .ok (added homes o g, []) := by
  cases g with
  | file name =>
    obtain ⟨p, hp⟩ := h
    have hopt : isOption fileOption = true := rfl
    have happly : o.apply homes fileOption name = .ok { o with configFile := some p } := by
      rw [apply, if_pos rfl, hp]
      rfl
    show take homes o [fileOption, name] = _
    rw [take, if_pos hopt, happly]
    simp only [take, added, Given.file?, hp]
    rfl
  | fs uri => rfl
  | setting key value joined =>
    have hdefine : o.define (key ++ .char '=' :: value) =
        .ok { o with overrides := o.overrides.insert (Text.trim key) value } :=
      define_of_sound h.1 h.2
    have hne : key ++ .char '=' :: value ≠ [] := by simp
    cases joined with
    | false =>
      have hopt : isOption settingOption = true := rfl
      have happly : o.apply homes settingOption (key ++ .char '=' :: value) =
          o.define (key ++ .char '=' :: value) := rfl
      show take homes o [settingOption, key ++ .char '=' :: value] = _
      rw [take, if_pos hopt, happly, hdefine]
      rfl
    | true =>
      show take homes o [settingOption ++ (key ++ .char '=' :: value)] = _
      rw [take, if_neg (by simp [isOption_append hne]), joined?_append hne]
      dsimp only
      rw [hdefine]
      rfl

/-- A rest that looks like no generic option is left over. -/
theorem take_of_stops (h : Stops rest) : take homes o rest = .ok (o, rest) := by
  cases h with
  | nil => rfl
  | @cons a r ho hj =>
    have hopt : ¬ isOption a = true := fun h => ho (isOption_iff.1 h)
    have hjoin : joined? a = none := by
      rcases e : joined? a with - | definition
      · rfl
      · exact absurd (joined?_eq_some e ▸ List.prefix_append ..) hj
    rcases r with - | ⟨b, r⟩ <;> rw [take, if_neg hopt, hjoin]

/-- **Options that are well written are taken one after the other.** -/
theorem take_of_splits {given : List Given} (h : Splits homes args given rest) :
    take homes o args = .ok (given.foldl (added homes) o, rest) := by
  obtain ⟨rfl, hsound, hstops⟩ := h
  induction given generalizing o with
  | nil => exact take_of_stops hstops
  | cons g given ih =>
    obtain ⟨hg, hsound⟩ := List.forall_mem_cons.1 hsound
    rw [List.flatMap_cons, List.append_assoc, take_append (take_tokens hg)]
    exact ih hsound

/-! ### Only such options are taken -/

theorem exists_given_of_apply {a value : Text} (ho : isOption a = true)
    (h : o.apply homes a value = .ok o') :
    ∃ g : Given, g.tokens = [a, value] ∧ g.Sound homes ∧ o' = added homes o g := by
  unfold apply at h
  split at h
  · next ha =>
    obtain ⟨p, hp, rfl⟩ := map_eq_ok.1 h
    refine ⟨.file value, by rw [ha]; rfl, ⟨p, hp⟩, ?_⟩
    simp only [added, Given.file?, hp]
    rfl
  · next hfile =>
    split at h
    · next ha =>
      cases h
      exact ⟨.fs value, by rw [ha]; rfl, trivial, rfl⟩
    · next hfs =>
      obtain ⟨key, v, rfl, hk, he, rfl⟩ := define_eq_ok h
      have ha : a = settingOption := by
        have hmem := isOption_iff.1 ho
        simp only [List.mem_cons, List.not_mem_nil, or_false] at hmem
        exact (hmem.resolve_left hfile).resolve_right hfs
      exact ⟨.setting key v false, by rw [ha]; rfl, ⟨hk, he⟩, rfl⟩

theorem exists_given_of_joined (homes : Homes) {a definition : Text}
    (hj : joined? a = some definition) (h : o.define definition = .ok o') :
    ∃ g : Given, g.tokens = [a] ∧ g.Sound homes ∧ o' = added homes o g := by
  obtain ⟨key, value, rfl, hk, he, rfl⟩ := define_eq_ok h
  exact ⟨.setting key value true, by rw [joined?_eq_some hj]; rfl, ⟨hk, he⟩, rfl⟩

/-- One option more in front. -/
theorem Splits.cons {g : Given} {given : List Given} (hg : g.Sound homes)
    (h : Splits homes args given rest) : Splits homes (g.tokens ++ args) (g :: given) rest where
  args := by rw [h.args, List.flatMap_cons, List.append_assoc]
  sound := List.forall_mem_cons.2 ⟨hg, h.sound⟩
  stops := h.stops

/-- Nothing is taken of a rest that looks like no generic option. -/
theorem Splits.nil (homes : Homes) (h : Stops rest) : Splits homes rest [] rest where
  args := rfl
  sound := List.forall_mem_nil _
  stops := h

theorem stops_of_not_option {a : Text} {r : List Text} (ho : ¬ isOption a = true)
    (hj : joined? a = none) : Stops (a :: r) := by
  refine .cons (fun h => ho (isOption_iff.2 h)) ?_
  rintro ⟨definition, rfl⟩
  rcases definition with - | ⟨c, d⟩
  · rw [List.append_nil] at ho
    exact ho rfl
  · rw [joined?_append (List.cons_ne_nil c d)] at hj
    cases hj

/-- Nothing is taken before a rest that looks like no generic option. -/
theorem exists_splits_nil (homes : Homes) (o : GenericOptions) (h : Stops rest) :
    ∃ given, Splits homes rest given rest ∧ o = given.foldl (added homes) o :=
  ⟨[], .nil homes h, rfl⟩

/-- An option is taken before those that are taken of the arguments behind it. -/
theorem exists_splits_cons {g : Given} {tokens : List Text} (hg : g.tokens = tokens)
    (hsound : g.Sound homes)
    (h : ∃ given, Splits homes args given rest ∧ o' = given.foldl (added homes) (added homes o g)) :
    ∃ given, Splits homes (tokens ++ args) given rest ∧ o' = given.foldl (added homes) o := by
  obtain ⟨given, hsplits, rfl⟩ := h
  have hcons := hsplits.cons hsound
  rw [hg] at hcons
  exact ⟨g :: given, hcons, rfl⟩

/-- **What is taken are options that are well written, up to a rest that looks like
none.** -/
theorem exists_splits (h : take homes o args = .ok (o', rest)) :
    ∃ given, Splits homes args given rest ∧ o' = given.foldl (added homes) o := by
  fun_induction take homes o args with
  | case1 o =>
    cases h
    exact exists_splits_nil homes o' .nil
  | case2 => cases h
  | case3 o a ho definition hj =>
    obtain ⟨o₁, hdefine, he⟩ := map_eq_ok.1 h
    cases he
    obtain ⟨g, hg, hsound, rfl⟩ := exists_given_of_joined homes hj hdefine
    exact exists_splits_cons hg hsound (exists_splits_nil homes _ .nil)
  | case4 o a ho hj =>
    cases h
    exact exists_splits_nil homes o' (stops_of_not_option ho hj)
  | case5 o a value r ho o₁ happly ih =>
    obtain ⟨g, hg, hsound, rfl⟩ := exists_given_of_apply ho happly
    exact exists_splits_cons hg hsound (ih h)
  | case6 => cases h
  | case7 o a value r ho definition hj o₁ hdefine ih =>
    obtain ⟨g, hg, hsound, rfl⟩ := exists_given_of_joined homes hj hdefine
    exact exists_splits_cons hg hsound (ih h)
  | case8 => cases h
  | case9 o a value r ho hj =>
    cases h
    exact exists_splits_nil homes o' (stops_of_not_option ho hj)

/-! ### Arguments and what they come to -/

/-- Options that are well written are followed by one that names a file whose homes
directory cannot be told. -/
def NamesUnexpanded (homes : Homes) (args : List Text) (f : Failure) : Prop :=
  ∃ (given : List Given) (name : Text) (rest : List Text),
    args = given.flatMap Given.tokens ++ (Given.file name).tokens ++ rest ∧
    (∀ g ∈ given, g.Sound homes) ∧ (FilePath.ofText name).expandHome homes = .error f

theorem namesUnexpanded_of_unexpanded (h : Unexpanded homes o args f) :
    NamesUnexpanded homes args f := by
  obtain ⟨before, name, rest, o', rfl, htake, hexpand⟩ := h
  obtain ⟨given, hsplits, -⟩ := exists_splits htake
  refine ⟨given, name, rest, ?_, hsplits.sound, hexpand⟩
  rw [hsplits.args, List.append_nil, List.append_assoc]
  rfl

/-- Arguments that do not split into options and a rest are refused. -/
theorem failure_of_not_splits (h : ¬ ∃ given rest, Splits homes args given rest) :
    ∃ f, take homes o args = .error f ∧ (f.IsConfig ∨ NamesUnexpanded homes args f) := by
  rcases e : take homes o args with f | ⟨o', rest⟩
  · exact ⟨f, rfl, (take_eq_error e).imp_right namesUnexpanded_of_unexpanded⟩
  · obtain ⟨given, hsplits, -⟩ := exists_splits e
    exact absurd ⟨given, rest, hsplits⟩ h

/-- **Generic options are decoded exactly.**  What is taken splits into options that
are well written and a rest that looks like none, and all that splits so is taken;
either way the options come to the file that is named last and to the last
definitions of the keys, in the order of the first ones.  All other arguments are
refused: the configuration is wrong, or the name of a file cannot be expanded, and
that is a name that is shown with a tilde in front. -/
theorem parse_decodes (homes : Homes) (args : List Text) :
    (∀ o rest, parse homes args = .ok (o, rest) →
      ∃ given, Splits homes args given rest ∧ Decoded homes given o) ∧
    (∀ given rest, Splits homes args given rest →
      ∃ o, parse homes args = .ok (o, rest) ∧ Decoded homes given o) ∧
    ((¬ ∃ given rest, Splits homes args given rest) →
      ∃ f, parse homes args = .error f ∧ (f.IsConfig ∨ NamesUnexpanded homes args f)) ∧
    ∀ name, (FilePath.ofText name).render.head? ≠ some (.char '~') →
      (Given.file name).Sound homes := by
  refine ⟨?_, ?_, failure_of_not_splits, fun name => Given.sound_file homes⟩
  · intro o rest h
    obtain ⟨given, hsplits, rfl⟩ := exists_splits h
    exact ⟨given, hsplits, decoded_foldl_added given⟩
  · intro given rest h
    exact ⟨_, take_of_splits h, decoded_foldl_added given⟩

/-- A key that is defined twice, with the options in between. -/
theorem parse_decodes_redefined :
    ∃ o, parse "/h".text (["-Dk=1", "-fs", "ecfs://h", "-conf", "c.json", "-D", " k =2=3",
        "-listPolicies", "-fs"].map String.text) =
      .ok (o, ["-listPolicies".text, "-fs".text]) ∧
      o.configFile = some (.ofText "c.json".text) ∧
      o.overrides.keys = ["k".text, "default_fs".text] ∧
      o.overrides.get? "k".text = some "2=3".text := by
  have hsplits : Splits "/h".text (["-Dk=1", "-fs", "ecfs://h", "-conf", "c.json", "-D",
      " k =2=3", "-listPolicies", "-fs"].map String.text)
      [.setting "k".text "1".text true, .fs "ecfs://h".text, .file "c.json".text,
        .setting " k ".text "2=3".text false]
      ["-listPolicies".text, "-fs".text] := by
    refine ⟨rfl, ?_, .cons (by decide) (by decide)⟩
    simp only [List.forall_mem_cons]
    exact ⟨⟨by decide, by decide⟩, trivial, ⟨_, rfl⟩, ⟨by decide, by decide⟩,
      List.forall_mem_nil _⟩
  obtain ⟨o, hparse, hfile, hkeys, hvalues⟩ := (parse_decodes _ _).2.1 _ _ hsplits
  exact ⟨o, hparse, hfile, hkeys, hvalues _⟩

/-- A name that does not start with a tilde may be shown with one: the dot in front
is dropped, and then a user is looked for who is not there. -/
theorem not_always_decoded :
    ¬ ∀ (homes : Homes) (given : List Given) (rest : List Text),
      (∀ name, Given.file name ∈ given → name.head? ≠ some (.char '~')) →
      (∀ key value joined, Given.setting key value joined ∈ given →
        Text.trim key ≠ [] ∧ .char '=' ∉ key) →
      Stops rest →
      ∃ o, parse homes (given.flatMap Given.tokens ++ rest) = .ok (o, rest) ∧
        Decoded homes given o := by
  intro h
  have hname : ∀ name, Given.file name ∈ [Given.file "./~nosuchuser_zz".text] →
      name.head? ≠ some (.char '~') := by
    intro name hmem
    cases List.mem_singleton.1 hmem
    decide
  have hsetting : ∀ key value joined,
      Given.setting key value joined ∈ [Given.file "./~nosuchuser_zz".text] →
        Text.trim key ≠ [] ∧ .char '=' ∉ key := by
    intro key value joined hmem
    cases List.mem_singleton.1 hmem
  obtain ⟨o, hparse, -⟩ := h "/h".text [.file "./~nosuchuser_zz".text] [] hname hsetting .nil
  have hfail : parse "/h".text ["-conf".text, "./~nosuchuser_zz".text] = .error .noHome := by
    rfl
  cases hfail.symm.trans hparse

end CodingPolicy.Config.GenericOptions
