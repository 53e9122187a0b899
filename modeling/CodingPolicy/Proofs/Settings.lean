/-
CodingPolicy/Proofs/Settings.lean

How the settings of a call fail to make a configuration.  Each step has its own
ways, and a failure of the configuration (`Failure.IsConfig`) is one that the
program answers.  The others are told step by step: a name of a file that
cannot be expanded among the generic options (`GenericOptions.Unexpanded`), a
configuration file that cannot be read as text or as numbers (`Config.Unread`),
and a home directory that is needed and cannot be told (`Config.HomeNeeded`).

Main results: the generic options (`GenericOptions.take_eq_error`), the
configuration file (`Config.readFile_eq_error`) and the settings
(`Config.ofMembers_eq_error`) fail in these ways, or the configuration is wrong.
-/
import CodingPolicy.Invocation
import CodingPolicy.Proofs.Directories
import CodingPolicy.Proofs.Outcome

namespace CodingPolicy

variable {homes : Homes} {around : Surroundings} {d d' : Disk} {args rest : List Text}
variable {p : FilePath} {f : Failure}

/-- The failure is one of the configuration, which the program answers. -/
def Failure.IsConfig (f : Failure) : Prop :=
  ∃ cause, f = .config cause

/-- A name that cannot be expanded is no failure of the configuration. -/
theorem FilePath.expandHome_eq_error (h : p.expandHome homes = .error f) :
    (∃ bad : Fault, f = bad.failure) ∨ f = .noHome := by
  unfold expandHome at h
  split at h
  · split at h
    · cases h
      exact .inl ⟨_, rfl⟩
    · split at h
      · cases h
        exact .inr rfl
      · cases h
        exact .inr rfl
      · cases h
  · cases h

namespace Config

/-! ### Generic options -/

namespace GenericOptions

variable {o o' : GenericOptions} {option value : Text}

/-- The value of an option for the configuration file cannot be expanded; the
arguments before it are generic options. -/
def Unexpanded (homes : Homes) (o : GenericOptions) (args : List Text) (f : Failure) : Prop :=
  ∃ before value rest o', args = before ++ fileOption :: value :: rest ∧
    take homes o before = .ok (o', []) ∧ (FilePath.ofText value).expandHome homes = .error f

/-- Options that leave nothing over may be taken first. -/
theorem take_append {before : List Text} (h : take homes o before = .ok (o', []))
    (rest : List Text) : take homes o (before ++ rest) = take homes o' rest := by
  fun_induction take homes o before with
  | case1 o =>
    cases h
    rfl
  | case2 => cases h
  | case3 o a hopt definition hjoin =>
    obtain ⟨o₁, hdefine, he⟩ := map_eq_ok.1 h
    cases he
    -- the option stands alone, and whatever follows is taken after it
    rcases rest with - | ⟨b, r⟩
    · have htake : take homes o [a] = .ok (o', []) := by
        rw [take, if_neg hopt, hjoin]
        dsimp only
        rw [hdefine]
        rfl
      exact htake
    · rw [List.cons_append, List.nil_append, take, if_neg hopt, hjoin]
      dsimp only
      rw [hdefine]
  | case4 => cases h
  | case5 o a value r hopt o₁ happly ih =>
    rw [List.cons_append, List.cons_append, take, if_pos hopt, happly]
    exact ih h
  | case6 => cases h
  | case7 o a value r hopt definition hjoin o₁ hdefine ih =>
    rw [List.cons_append, List.cons_append, take, if_neg hopt, hjoin]
    dsimp only
    rw [hdefine]
    exact ih h
  | case8 => cases h
  | case9 => cases h

theorem isConfig_of_define {definition : Text} (h : o.define definition = .error f) :
    f.IsConfig := by
  unfold define at h
  split at h
  · split at h
    · cases h
      exact ⟨_, rfl⟩
    · cases h
  · cases h
    exact ⟨_, rfl⟩

/-- An option that cannot be applied is wrong, or names a file that cannot be expanded. -/
theorem apply_eq_error (h : o.apply homes option value = .error f) :
    f.IsConfig ∨ option = fileOption ∧ (FilePath.ofText value).expandHome homes = .error f := by
  unfold apply at h
  split at h
  · next ho => exact .inr ⟨ho, map_eq_error.1 h⟩
  · split at h
    · cases h
    · exact .inl (isConfig_of_define h)

/-- An option more in front of those that are taken. -/
theorem Unexpanded.append {before : List Text} (hb : take homes o before = .ok (o', []))
    (h : Unexpanded homes o' args f) : Unexpanded homes o (before ++ args) f := by
  obtain ⟨between, value, rest, o'', rfl, ht, he⟩ := h
  refine ⟨before ++ between, value, rest, o'', by simp, ?_, he⟩
  rw [take_append hb, ht]

/-- **Generic options that are not taken are wrong, or name a file that cannot be
expanded.** -/
theorem take_eq_error (h : take homes o args = .error f) :
    f.IsConfig ∨ Unexpanded homes o args f := by
  fun_induction take homes o args with
  | case1 => cases h
  | case2 =>
    cases h
    exact .inl ⟨_, rfl⟩
  | case3 => exact .inl (isConfig_of_define (map_eq_error.1 h))
  | case4 => cases h
  | case5 o a value r hopt o₁ happly ih =>
    have hb : take homes o [a, value] = .ok (o₁, []) := by
      rw [take, if_pos hopt, happly]
      rfl
    exact (ih h).imp_right (.append hb)
  | case6 o a value r hopt g happly =>
    cases h
    rcases apply_eq_error happly with hc | ⟨rfl, he⟩
    · exact .inl hc
    · exact .inr ⟨[], value, r, o, rfl, rfl, he⟩
  | case7 o a value r hopt definition hjoin o₁ hdefine ih =>
    have hb : take homes o [a] = .ok (o₁, []) := by
      rw [take, if_neg hopt, hjoin]
      dsimp only
      rw [hdefine]
      rfl
    exact (ih h).imp_right (.append hb)
  | case8 o a value r hopt definition hjoin g hdefine =>
    cases h
    exact .inl (isConfig_of_define hdefine)
  | case9 => cases h

end GenericOptions

/-! ### The configuration file -/

variable {members : List (Text × Json)}

/-- The home directory is needed for a file name among the settings, and cannot
be told. -/
inductive HomeNeeded (homes : Homes) (members : List (Text × Json)) : Prop
  /-- The state file needs it, be it the one that is set or the default. -/
  | stateFile {t : Text}
      (ht : (Entries.get? "state_file".text members).getD (.string defaultStateFile) = .string t)
      (he : (FilePath.ofText t).expandHome homes = .error .noHome)
  /-- The log file needs it. -/
  | logFile {t : Text} (ht : Entries.get? "log_file".text members = some (.string t))
      (he : (FilePath.ofText t).expandHome homes = .error .noHome)

theorem expand_eq_error :
    expand homes p = .error f ↔ p.expandHome homes = .error .noHome ∧ f = .noHome := by
  unfold expand
  rcases e : p.expandHome homes with g | q
  · rcases FilePath.expandHome_eq_error e with ⟨_ | _, rfl⟩ | rfl
    · simp [FilePath.Fault.failure]
    · simp [FilePath.Fault.failure]
    · simp [eq_comm]
  · simp

/-- Only the home directory stops the reading of a file name. -/
theorem readFileName_eq_error {v : Json} :
    readFileName homes v = .error f ↔
      (∃ t, v = .string t ∧ (FilePath.ofText t).expandHome homes = .error .noHome) ∧
        f = .noHome := by
  cases v with
  | string t => simp [readFileName, expand_eq_error]
  | _ => simp [readFileName]

theorem readStateFile_eq_error :
    readStateFile homes members = .error f ↔
      (∃ t, (Entries.get? "state_file".text members).getD (.string defaultStateFile) =
        .string t ∧ (FilePath.ofText t).expandHome homes = .error .noHome) ∧ f = .noHome := by
  rw [← readFileName_eq_error, readStateFile, bind_eq_error]
  constructor
  · rintro (h | ⟨result, -, h⟩)
    · exact h
    · cases h
  · exact .inl

theorem readLogFile_eq_error :
    readLogFile homes members = .error f ↔
      (∃ t, Entries.get? "log_file".text members = some (.string t) ∧
        (FilePath.ofText t).expandHome homes = .error .noHome) ∧ f = .noHome := by
  unfold readLogFile
  dsimp only
  split
  · next e =>
    rw [e]
    simp [pure, Except.pure]
  · next e =>
    rw [e]
    simp [pure, Except.pure]
  · next v _ e =>
    rw [bind_eq_error, readFileName_eq_error, e]
    constructor
    · rintro (h | ⟨result, -, h⟩)
      · simpa using h
      · cases h
    · intro h
      left
      simpa using h

/-! #### Violations -/

/-- A check that fails lists some violation. -/
def Listed {α : Type} (result : Except (List Violation) α) : Prop :=
  violations result = [] → ∃ a, result = .ok a

theorem listed_ok {α : Type} (a : α) : Listed (.ok a : Except (List Violation) α) :=
  fun _ => ⟨a, rfl⟩

theorem listed_refuse {α : Type} (cause : Violation.Cause) :
    Listed (refuse cause : Except (List Violation) α) := nofun

theorem Listed.within {α : Type} {result : Except (List Violation) α} (h : Listed result)
    (step : Place) : Listed (within step result) := by
  rcases result with vs | a
  · intro hw
    have hmap : vs.map (Violation.under step) = [] := hw
    obtain ⟨a, ha⟩ := h (List.map_eq_nil_iff.1 hmap)
    cases ha
  · exact listed_ok a

theorem listed_readTextSetting {key : String} {default : Text}
    {check : Text → Except (List Violation) Text} (hc : ∀ t, Listed (check t)) :
    Listed (readTextSetting key default check members) := by
  apply Listed.within
  generalize (Entries.get? key.text members).getD (.string default) = v
  cases v with
  | string t => exact hc t
  | _ => exact listed_refuse _

theorem listed_checkFs (t : Text) : Listed (checkFs t) := by
  unfold checkFs
  split
  · exact listed_ok _
  · exact listed_refuse _

theorem listed_checkWorkingDir (t : Text) : Listed (checkWorkingDir t) := by
  unfold checkWorkingDir
  split
  · exact listed_ok _
  · exact listed_refuse _

theorem listed_readFileName {v : Json} {result : Except (List Violation) FilePath}
    (h : readFileName homes v = .ok result) : Listed result := by
  cases v with
  | string t =>
    simp only [readFileName, expand] at h
    split at h
    · cases h
      exact listed_ok _
    · cases h
    · cases h
      exact listed_refuse _
  | _ =>
    cases h
    exact listed_refuse _

theorem listed_readStateFile {result : Except (List Violation) FilePath}
    (h : readStateFile homes members = .ok result) : Listed result := by
  obtain ⟨name, hn, h⟩ := bind_eq_ok.1 h
  cases h
  exact (listed_readFileName hn).within _

theorem listed_readLogFile {result : Except (List Violation) (Option FilePath)}
    (h : readLogFile homes members = .ok result) : Listed result := by
  unfold readLogFile at h
  dsimp only at h
  split at h
  · cases h
    exact listed_ok _
  · cases h
    exact listed_ok _
  · obtain ⟨name, hn, h⟩ := bind_eq_ok.1 h
    cases h
    apply Listed.within
    rcases name with vs | q
    · exact fun hvs => nomatch listed_readFileName hn hvs
    · exact listed_ok _

/-- Checks that do not all succeed list some violation. -/
theorem exists_violation {fs dir : Except (List Violation) Text}
    {state : Except (List Violation) FilePath} {log : Except (List Violation) (Option FilePath)}
    {unknown : List Violation} (hfs : Listed fs) (hstate : Listed state) (hdir : Listed dir)
    (hlog : Listed log)
    (hno : ∀ a b c d, fs = .ok a → state = .ok b → dir = .ok c → log = .ok d → unknown = [] →
      False) :
    ∃ v vs, violations fs ++ violations state ++ violations dir ++ violations log ++ unknown =
      v :: vs := by
  apply List.exists_cons_of_ne_nil
  intro h
  simp only [List.append_eq_nil_iff] at h
  obtain ⟨⟨⟨⟨hfs', hstate'⟩, hdir'⟩, hlog'⟩, hunknown⟩ := h
  obtain ⟨a, ha⟩ := hfs hfs'
  obtain ⟨b, hb⟩ := hstate hstate'
  obtain ⟨c, hc⟩ := hdir hdir'
  obtain ⟨d, hd⟩ := hlog hlog'
  exact hno a b c d ha hb hc hd hunknown

/-- **Settings make no configuration where the home directory is needed and cannot
be told, or where some rule is broken.** -/
theorem ofMembers_eq_error (h : ofMembers homes members = .error f) :
    HomeNeeded homes members ∧ f = .noHome ∨ ∃ v vs, f = .invalidModel (v :: vs) := by
  rw [ofMembers] at h
  rcases bind_eq_error.1 h with h | ⟨state, hstate, h⟩
  · obtain ⟨⟨t, ht, he⟩, hf⟩ := readStateFile_eq_error.1 h
    exact .inl ⟨.stateFile ht he, hf⟩
  · rcases bind_eq_error.1 h with h | ⟨log, hlog, h⟩
    · obtain ⟨⟨t, ht, he⟩, hf⟩ := readLogFile_eq_error.1 h
      exact .inl ⟨.logFile ht he, hf⟩
    · right
      split at h
      · cases h
      · next hno =>
        obtain ⟨v, vs, hvs⟩ := exists_violation (listed_readTextSetting listed_checkFs)
          (listed_readStateFile hstate) (listed_readTextSetting listed_checkWorkingDir)
          (listed_readLogFile hlog) hno
        obtain rfl := Except.error.inj h
        rw [hvs, toldOf]
        split <;> exact ⟨_, _, rfl⟩

theorem ofMembers_of_homeNeeded (h : HomeNeeded homes members) :
    ofMembers homes members = .error .noHome := by
  rw [ofMembers]
  cases h with
  | stateFile ht he => rw [readStateFile_eq_error.2 ⟨⟨_, ht, he⟩, rfl⟩, error_bind]
  | logFile ht he =>
    rcases e : readStateFile homes members with g | state
    · obtain ⟨-, rfl⟩ := readStateFile_eq_error.1 e
      rfl
    · rw [ok_bind, readLogFile_eq_error.2 ⟨⟨_, ht, he⟩, rfl⟩, error_bind]

/-- Of the failures of the settings only that of the home directory is not answered. -/
theorem reportFirst_eq_error (h : reportFirst (ofMembers homes members) = .error f) :
    f.IsConfig ∨ HomeNeeded homes members ∧ f = .noHome := by
  rcases e : ofMembers homes members with g | config
  · rw [e] at h
    rcases ofMembers_eq_error e with ⟨hneeded, rfl⟩ | ⟨v, vs, rfl⟩
    · cases h
      exact .inr ⟨hneeded, rfl⟩
    · cases h
      exact .inl ⟨_, rfl⟩
  · rw [e] at h
    cases h

theorem reportFirst_eq_ok {result : Except Failure Config} {config : Config}
    (h : reportFirst result = .ok config) : result = .ok config := by
  unfold reportFirst at h
  split at h
  · cases h
  · exact h

/-! ### All settings of a call -/

variable {o : GenericOptions}

/-- The settings of a call: those of the configuration file, and above them
those of the options. -/
def settings (around : Surroundings) (d : Disk) (o : GenericOptions) :
    Except Failure (List (Text × Json)) :=
  chooseFile around o.configFile >>= fun file =>
    (match file with
      | some p => readFile d p
      | none => .ok []) >>= fun inFile =>
        .ok (Entries.merge inFile (o.overrides.entries.map fun e => (e.1, Json.string e.2)))

end Config

end CodingPolicy
