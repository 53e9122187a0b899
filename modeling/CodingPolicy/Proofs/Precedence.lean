/-
CodingPolicy/Proofs/Precedence.lean

Which settings count.  At every key the value of the options counts, or else that of
the configuration file (`Config.chosen`); where there is none, the default does.
What a load comes to is told by the values that count alone: a configuration is made
when every value that counts passes its check and every key is one of the settings
(`Config.load_eq_ok`), and the home directory is missed where one of the values needs
it (`Config.load_eq_noHome`).

Main result: the precedence in this form (`Config.load_precedence`).  So what
the file has under a key that the options set does not show, neither in the
configuration nor in whether there is one.
-/
import CodingPolicy.Proofs.RoundTrip
import CodingPolicy.Proofs.Settings

namespace CodingPolicy.Config

variable {homes : Homes} {around : Surroundings} {d d' : Disk} {p p' : FilePath} {f : Failure}
variable {overrides : OrderedMap Text Text} {inFile inFile' members : List (Text × Json)}
variable {config : Config}

/-! ### The values that count -/

/-- The file is there, and its text is that of a JSON object. -/
def Holds (d : Disk) (p : FilePath) (inFile : List (Text × Json)) : Prop :=
  ∃ t, d.readText p = .ok t ∧ Json.read t = .ok (.object inFile)

/-- The value that counts at a key: that of the options, or else that of the file. -/
def chosen (overrides : OrderedMap Text Text) (inFile : List (Text × Json)) (key : Text) :
    Option Json :=
  ((overrides.get? key).map Json.string).or (Entries.get? key inFile)

theorem chosen_ne_none_iff {key : Text} :
    chosen overrides inFile key ≠ none ↔ key ∈ inFile.map Prod.fst ∨ key ∈ overrides.keys := by
  rw [chosen, Ne, Option.or_eq_none_iff, Option.map_eq_none_iff, OrderedMap.get?,
    Entries.get?_eq_none_iff, Entries.get?_eq_none_iff, ← not_or, Decidable.not_not, or_comm]
  rfl

/-- Only keys of settings have a value. -/
def Known (value : Text → Option Json) : Prop :=
  ∀ key, value key ≠ none → key ∈ keys

/-- The fields are those of the values, each checked, with the defaults, which are
checked as well, where there is no value. -/
structure Fields (homes : Homes) (value : Text → Option Json) (config : Config) : Prop where
  /-- The file system is a URI. -/
  defaultFs : ∃ t, (value "default_fs".text).getD (.string defaultFileSystem) = .string t ∧
    checkFs t = .ok config.defaultFs
  /-- The state file is a name, expanded. -/
  stateFile : ∃ t, (value "state_file".text).getD (.string defaultStateFile) = .string t ∧
    (FilePath.ofText t).expandHome homes = .ok config.stateFile
  /-- The working directory is absolute. -/
  workingDir : ∃ t, (value "working_dir".text).getD (.string defaultWorkingDir) = .string t ∧
    checkWorkingDir t = .ok config.workingDir
  /-- The log file is a name, expanded, or there is none. -/
  logFile : (value "log_file".text).getD .null = .null ∧ config.logFile = none ∨
    ∃ t q, (value "log_file".text).getD .null = .string t ∧
      (FilePath.ofText t).expandHome homes = .ok q ∧ config.logFile = some q

/-- The home directory is needed for the name of a file that counts, and cannot be told. -/
def NeedsHome (homes : Homes) (value : Text → Option Json) : Prop :=
  ∃ t, ((value "state_file".text).getD (.string defaultStateFile) = .string t ∨
      value "log_file".text = some (.string t)) ∧
    (FilePath.ofText t).expandHome homes = .error .noHome

/-- Two loads end alike: in the same configuration, or both without one, and then
both for the missing home directory or both for a wrong configuration. -/
inductive Alike : Except Failure Config → Except Failure Config → Prop where
  /-- Both make the configuration. -/
  | made (config : Config) : Alike (.ok config) (.ok config)
  /-- Neither is told the home directory. -/
  | noHome : Alike (.error .noHome) (.error .noHome)
  /-- Both are wrong. -/
  | wrong {f f' : Failure} (hf : f.IsConfig) (hf' : f'.IsConfig) : Alike (.error f) (.error f')

/-- What the one load makes, the other makes. -/
theorem Alike.eq_ok {result result' : Except Failure Config} (h : Alike result result')
    (hresult : result = .ok config) : result' = .ok config := by
  cases h with
  | made => exact hresult
  | noHome => exact hresult
  | wrong => cases hresult

/-! ### Single settings -/

theorem readTextSetting_eq_ok {key : String} {default t : Text}
    {check : Text → Except (List Violation) Text} :
    readTextSetting key default check members = .ok t ↔
      ∃ s, (Entries.get? key.text members).getD (.string default) = .string s ∧
        check s = .ok t := by
  simp only [readTextSetting, within_eq_ok, bind_eq_ok, readTextValue_eq_ok]

theorem expand_eq_ok {q : FilePath} :
    expand homes p = .ok (.ok q) ↔ p.expandHome homes = .ok q := by
  unfold expand
  rcases p.expandHome homes with g | r
  · cases g <;> simp [refuse]
  · simp

theorem readFileName_eq_ok {v : Json} {q : FilePath} :
    readFileName homes v = .ok (.ok q) ↔
      ∃ t, v = .string t ∧ (FilePath.ofText t).expandHome homes = .ok q := by
  cases v with
  | string t => simp [readFileName, expand_eq_ok]
  | _ => simp [readFileName, refuse]

theorem readStateFile_eq_ok {q : FilePath} :
    readStateFile homes members = .ok (.ok q) ↔
      ∃ t, (Entries.get? "state_file".text members).getD (.string defaultStateFile) =
        .string t ∧ (FilePath.ofText t).expandHome homes = .ok q := by
  rw [← readFileName_eq_ok, readStateFile, bind_eq_ok]
  constructor
  · rintro ⟨name, hname, h⟩
    rw [hname, within_eq_ok.1 (Except.ok.inj h)]
  · intro h
    exact ⟨.ok q, h, rfl⟩

theorem readLogFile_eq_ok {log : Option FilePath} :
    readLogFile homes members = .ok (.ok log) ↔
      (Entries.get? "log_file".text members).getD .null = .null ∧ log = none ∨
        ∃ t q, (Entries.get? "log_file".text members).getD .null = .string t ∧
          (FilePath.ofText t).expandHome homes = .ok q ∧ log = some q := by
  unfold readLogFile
  dsimp only
  split
  · next e =>
    rw [e]
    simp [pure, Except.pure, eq_comm]
  · next e =>
    rw [e]
    simp [pure, Except.pure, eq_comm]
  · next v hnull e =>
    rw [e, Option.getD_some]
    constructor
    · intro h
      right
      obtain ⟨name, hname, h⟩ := bind_eq_ok.1 h
      obtain ⟨q, rfl, rfl⟩ := map_eq_ok.1 (within_eq_ok.1 (Except.ok.inj h))
      obtain ⟨t, ht, hq⟩ := readFileName_eq_ok.1 hname
      exact ⟨t, q, ht, hq, rfl⟩
    · rintro (⟨hv, -⟩ | ⟨t, q, ht, hq, rfl⟩)
      · exact absurd hv hnull
      · rw [readFileName_eq_ok.2 ⟨t, ht, hq⟩]
        rfl

theorem unknownKeys_eq_nil :
    unknownKeys members = [] ↔ Known fun key => Entries.get? key members := by
  simp only [unknownKeys, List.map_eq_nil_iff, List.filter_eq_nil_iff, decide_eq_true_eq,
    Decidable.not_not, Known, ne_eq, Entries.get?_eq_none_iff]
  constructor
  · intro h key hkey
    obtain ⟨e, he, rfl⟩ := List.mem_map.1 hkey
    exact h e he
  · intro h e he
    exact h e.1 (List.mem_map_of_mem he)

/-! ### All settings -/

/-- **A configuration is made of settings that are known and pass their checks.** -/
theorem ofMembers_eq_ok :
    ofMembers homes members = .ok config ↔
      Fields homes (fun key => Entries.get? key members) config ∧
        Known fun key => Entries.get? key members := by
  rw [ofMembers, bind_eq_ok]
  constructor
  · rintro ⟨state, hstate, hrest⟩
    obtain ⟨log, hlog, h⟩ := bind_eq_ok.1 hrest
    split at h
    · next hfs hdir hunknown =>
      cases h
      exact ⟨⟨readTextSetting_eq_ok.1 hfs, readStateFile_eq_ok.1 hstate,
        readTextSetting_eq_ok.1 hdir, readLogFile_eq_ok.1 hlog⟩, unknownKeys_eq_nil.1 hunknown⟩
    · cases h
  · rintro ⟨⟨hfs, hstate, hdir, hlog⟩, hknown⟩
    refine ⟨_, readStateFile_eq_ok.2 hstate, ?_⟩
    rw [readLogFile_eq_ok.2 hlog, ok_bind, readTextSetting_eq_ok.2 hfs,
      readTextSetting_eq_ok.2 hdir, unknownKeys_eq_nil.2 hknown]
    rfl

theorem homeNeeded_iff :
    HomeNeeded homes members ↔ NeedsHome homes fun key => Entries.get? key members := by
  constructor
  · rintro (⟨ht, he⟩ | ⟨ht, he⟩)
    · exact ⟨_, .inl ht, he⟩
    · exact ⟨_, .inr ht, he⟩
  · rintro ⟨t, ht | ht, he⟩
    · exact .stateFile ht he
    · exact .logFile ht he

/-! ### A load -/

/-- The settings of the file with those of the options above them. -/
def layered (overrides : OrderedMap Text Text) (inFile : List (Text × Json)) :
    List (Text × Json) :=
  Entries.merge inFile (overrides.entries.map fun e => (e.1, Json.string e.2))

/-- **What is found among all settings is the value that counts.** -/
theorem get?_layered (overrides : OrderedMap Text Text) (inFile : List (Text × Json)) :
    (fun key => Entries.get? key (layered overrides inFile)) = chosen overrides inFile := by
  funext key
  rw [layered, Entries.get?_merge, ← List.map_reverse, Entries.get?_map,
    Entries.get?_reverse overrides.nodup]
  rfl

theorem load_of_holds (h : Holds d p inFile) :
    load around d (some p) overrides =
      reportFirst (ofMembers around.homes (layered overrides inFile)) := by
  obtain ⟨t, hread, ht⟩ := h
  have hfile : readFile d p = .ok inFile := by
    rw [readFile, hread]
    simp only [ht]
  show (readFile d p >>= fun members => _) = _
  rw [hfile, ok_bind]
  rfl

/-- A file with the printed text of an object holds that object. -/
theorem holds_of_lookUp (hplain : Json.Plain (.object inFile))
    (hbytes : Utf8.writeFault? (Json.print .compact (.object inFile)) = none)
    (h : d.lookUp p = .ok (.file (Utf8.encode (Json.print .compact (.object inFile))))) :
    Holds d p inFile := by
  have hreturn : .char '\r' ∉ Json.print .compact (.object inFile) :=
    hplain.not_mem_printAt (by decide) (fun _ => List.not_mem_nil) (by decide) 0
  have hread : Json.read (Json.print .compact (.object inFile) ++ []) = .ok (.object inFile) :=
    Json.read_print Json.Layout.blank_compact hplain (List.forall_mem_nil _)
  rw [List.append_nil] at hread
  exact ⟨_, Disk.readText_of_lookUp hreturn hbytes h, hread⟩

/-- **A load makes the configuration of the values that count.** -/
theorem load_eq_ok (h : Holds d p inFile) :
    load around d (some p) overrides = .ok config ↔
      Fields around.homes (chosen overrides inFile) config ∧ Known (chosen overrides inFile) := by
  rw [load_of_holds h, ← get?_layered, ← ofMembers_eq_ok]
  constructor
  · exact reportFirst_eq_ok
  · intro hconfig
    rw [hconfig]
    rfl

/-- **A load misses the home directory where a value that counts needs it.** -/
theorem load_eq_noHome (h : Holds d p inFile) :
    load around d (some p) overrides = .error .noHome ↔
      NeedsHome around.homes (chosen overrides inFile) := by
  rw [load_of_holds h, ← get?_layered, ← homeNeeded_iff]
  constructor
  · intro hload
    rcases reportFirst_eq_error hload with ⟨cause, hcause⟩ | ⟨hneeded, -⟩
    · cases hcause
    · exact hneeded
  · intro hneeded
    rw [ofMembers_of_homeNeeded hneeded]
    rfl

/-- There are no other failures. -/
theorem failure_of_load (h : Holds d p inFile)
    (hload : load around d (some p) overrides = .error f) : f.IsConfig ∨ f = .noHome := by
  rw [load_of_holds h] at hload
  exact (reportFirst_eq_error hload).imp_right And.right

/-! ### Two loads -/

/-- The values that count are the same where the files agree on the other keys. -/
theorem chosen_congr
    (hagree : ∀ key ∉ overrides.keys, Entries.get? key inFile = Entries.get? key inFile') :
    chosen overrides inFile = chosen overrides inFile' := by
  funext key
  rcases e : overrides.get? key with - | t
  · have hkey : key ∉ overrides.keys := Entries.get?_eq_none_iff.1 e
    rw [chosen, chosen, hagree key hkey]
  · rw [chosen, chosen, e]
    rfl

/-- **Loads with the same values that count end alike.** -/
theorem alike_of_chosen (h : Holds d p inFile) (h' : Holds d' p' inFile')
    (hchosen : chosen overrides inFile = chosen overrides inFile') :
    Alike (load around d (some p) overrides) (load around d' (some p') overrides) := by
  rcases e : load around d (some p) overrides with f | config
  · rcases e' : load around d' (some p') overrides with f' | config
    · rcases failure_of_load h e with hf | rfl
      · rcases failure_of_load h' e' with hf' | rfl
        · exact .wrong hf hf'
        · -- the home directory would be missed in the first load as well
          rw [load_eq_noHome h', ← hchosen, ← load_eq_noHome h, e] at e'
          cases e'
          exact .noHome
      · rw [load_eq_noHome h, hchosen, ← load_eq_noHome h', e'] at e
        cases e
        exact .noHome
    · rw [load_eq_ok h', ← hchosen, ← load_eq_ok h, e] at e'
      cases e'
  · have hload' : load around d' (some p') overrides = .ok config := by
      rwa [load_eq_ok h', ← hchosen, ← load_eq_ok h]
    rw [hload']
    exact .made config

/-- A key that is no setting, in the file or among the options, makes the load fail. -/
theorem failure_of_unknown (h : Holds d p inFile) {key : Text} (hkey : key ∉ keys)
    (hthere : key ∈ inFile.map Prod.fst ∨ key ∈ overrides.keys) :
    (∃ cause, load around d (some p) overrides = .error (.config cause)) ∨
      load around d (some p) overrides = .error .noHome ∧
        NeedsHome around.homes (chosen overrides inFile) := by
  rcases e : load around d (some p) overrides with f | config
  · rcases failure_of_load h e with ⟨cause, rfl⟩ | rfl
    · exact .inl ⟨cause, rfl⟩
    · exact .inr ⟨rfl, (load_eq_noHome h).1 e⟩
  · exact absurd (((load_eq_ok h).1 e).2 key (chosen_ne_none_iff.2 hthere)) hkey

/-- **The settings of the options stand above those of the configuration file, and
these above the defaults.**  Of a file that holds a JSON object: a configuration is
made just of the values that count; files that agree where the options say nothing
end alike; a key that is no setting makes the load fail.  Of every file that is
named: what the surroundings name does not matter; and where none is named, the file
that the surroundings name is the one that is loaded. -/
theorem load_precedence (around : Surroundings) (d : Disk) (p : FilePath)
    (overrides : OrderedMap Text Text) :
    (∀ inFile, Holds d p inFile →
      (∀ config, load around d (some p) overrides = .ok config ↔
        Fields around.homes (chosen overrides inFile) config ∧
          Known (chosen overrides inFile)) ∧
      (∀ d' p' inFile', Holds d' p' inFile' →
        (∀ key ∉ overrides.keys, Entries.get? key inFile = Entries.get? key inFile') →
        Alike (load around d (some p) overrides) (load around d' (some p') overrides)) ∧
      ∀ key ∉ keys, key ∈ inFile.map Prod.fst ∨ key ∈ overrides.keys →
        (∃ cause, load around d (some p) overrides = .error (.config cause)) ∨
          load around d (some p) overrides = .error .noHome ∧
            NeedsHome around.homes (chosen overrides inFile)) ∧
    (∀ configFile, load { around with configFile } d (some p) overrides =
      load around d (some p) overrides) ∧
    ∀ c r, around.configFile = some (c :: r) →
      load around d none overrides =
        ((FilePath.ofText (c :: r)).expandHome around.homes >>= fun q =>
          load around d (some q) overrides) := by
  refine ⟨?_, fun _ => rfl, ?_⟩
  · intro inFile h
    refine ⟨fun _ => load_eq_ok h, ?_, fun _ => failure_of_unknown h⟩
    intro d' p' inFile' h' hagree
    exact alike_of_chosen h h' (chosen_congr hagree)
  · intro c r hnamed
    have hchoose : chooseFile around none =
        ((FilePath.ofText (c :: r)).expandHome around.homes).map some := by
      unfold chooseFile
      rw [hnamed]
    rw [load, hchoose]
    rcases (FilePath.ofText (c :: r)).expandHome around.homes with f | q <;> rfl

/-- A disk with two configuration files: for the file system the one has a number and
the other has no value. -/
def maskedDisk : Disk where
  entries := [
    (["a".text], .file (Utf8.encode (Json.print .compact (.object
      [("default_fs".text, .int 5), ("state_file".text, .string "/s".text)])))),
    (["b".text], .file (Utf8.encode (Json.print .compact (.object
      [("state_file".text, .string "/s".text)]))))]

/-- Where the options set the file system, the two files make the same configuration. -/
theorem load_precedence_masked :
    ∃ config, config.defaultFs = "ecfs://h".text ∧
      load { home := "/h".text } maskedDisk (some (.ofText "/a".text))
        (.ofList [("default_fs".text, "ecfs://h".text)]) = .ok config ∧
      load { home := "/h".text } maskedDisk (some (.ofText "/b".text))
        (.ofList [("default_fs".text, "ecfs://h".text)]) = .ok config := by
  have ha : Holds maskedDisk (.ofText "/a".text)
      [("default_fs".text, .int 5), ("state_file".text, .string "/s".text)] := by
    refine holds_of_lookUp (.object ?_ (by decide)) (by decide) rfl
    simp only [List.forall_mem_cons]
    exact ⟨.int (by decide), .string _, List.forall_mem_nil _⟩
  have hb : Holds maskedDisk (.ofText "/b".text)
      [("state_file".text, .string "/s".text)] := by
    refine holds_of_lookUp (.object ?_ (by decide)) (by decide) rfl
    simp only [List.forall_mem_cons]
    exact ⟨.string _, List.forall_mem_nil _⟩
  obtain ⟨hconfig, hagree, -⟩ := (load_precedence { home := "/h".text } maskedDisk
    (.ofText "/a".text) (.ofList [("default_fs".text, "ecfs://h".text)])).1 _ ha
  have hload := (hconfig ⟨"ecfs://h".text, .ofText "/s".text, [.char '/'], none⟩).2 <| by
    refine ⟨⟨⟨_, rfl, rfl⟩, ⟨_, rfl, rfl⟩, ⟨_, rfl, rfl⟩, .inl ⟨rfl, rfl⟩⟩, ?_⟩
    intro key hkey
    rcases chosen_ne_none_iff.1 hkey with hfile | hoption
    · exact (by decide : ∀ key ∈ ["default_fs".text, "state_file".text], key ∈ keys) key hfile
    · exact (by decide : ∀ key ∈ ["default_fs".text], key ∈ keys) key hoption
  have halike := hagree maskedDisk _ _ hb <| by
    intro key hkey
    have hne : "default_fs".text ≠ key := fun h => hkey (h ▸ .head _)
    exact if_neg hne
  exact ⟨_, rfl, hload, halike.eq_ok hload⟩

end CodingPolicy.Config
