/-
CodingPolicy/Proofs/Course.lean

The course of a run as a relation.  `Command.Course` has one constructor for
each way in which a single command can go, from its arguments to the traces it
leaves; `Dispatch.Course` puts the search for the command, the two framing
events and the answer to an invalid argument around it.  Both say exactly what
the program does (`Command.course` and `Command.exec_of_course`,
`Dispatch.course` and `Dispatch.exec_of_course`), and whatever holds of every
run is then a case analysis over the constructors.
-/
import CodingPolicy.Dispatch
import CodingPolicy.Proofs.Arguments

namespace CodingPolicy

open SessionM

variable {σ : Type}

/-! ### A single command -/

namespace Command

/-- The ways in which a command of a description can go. -/
inductive Course (c : Setting σ) (config : Config) (d : Spec) (args : List Text) (s : Session σ) :
    Except Failure Int → Session σ → Prop where
  /-- The command is called the wrong way. -/
  | misused {cause : UsageFailure}
      (hp : parse d args config.workingDir = .error (.usage cause)) :
      Course c config d args s (.ok Status.usage) (s.complained (usageAnswer d cause))
  /-- An argument has no meaning. -/
  | malformed {f : Failure} (hp : parse d args config.workingDir = .error f)
      (hu : ∀ cause, f ≠ .usage cause) :
      Course c config d args s (.error f) s
  /-- All commands are explained. -/
  | explainedAll (hp : parse d args config.workingDir = .ok (.help none)) :
      Course c config d args s (.ok Status.ok) (s.complained (catalog true))
  /-- One command is explained. -/
  | explained {topic : Text} {t : Spec} (hp : parse d args config.workingDir = .ok (.help topic))
      (ht : resolve (.char '-' :: withoutDashes topic) = .ok t) :
      Course c config d args s (.ok Status.ok) (s.said t.longUsage)
  /-- What is to be explained is no command. -/
  | unknownTopic {topic : Text} {f : Failure}
      (hp : parse d args config.workingDir = .ok (.help topic))
      (ht : resolve (.char '-' :: withoutDashes topic) = .error f) :
      Course c config d args s (.ok Status.usage) (s.complained (unknownTopic topic))
  /-- The service is not there for the place. -/
  | turnedAway {call : Call} {f : Failure} (hp : parse d args config.workingDir = .ok call.command)
      (ha : c.admitted call.place? = .error f) :
      Course c config d args s (.error f) (s.contacted call.place?)
  /-- The service does what it was asked for. -/
  | served {call : Call} {result : Call.Result}
      (hp : parse d args config.workingDir = .ok call.command)
      (ha : c.admitted call.place? = .ok ()) (hr : (call.reply c s).outcome = .ok result) :
      Course c config d args s (.ok Status.ok)
        (((call.replied c s).noted c (call.changeEvents c)).saidAll (call.lines result))
  /-- The service reports a failure. -/
  | failed {call : Call} {cause : ServiceFailure}
      (hp : parse d args config.workingDir = .ok call.command)
      (ha : c.admitted call.place? = .ok ())
      (hr : (call.reply c s).outcome = .error (.service cause)) :
      Course c config d args s (.ok Status.service)
        (((call.replied c s).noted c [call.failureEvent c cause]).complained
          (Failure.service cause).summary)
  /-- The service fails in a way that is not its own. -/
  | broken {call : Call} {f : Failure}
      (hp : parse d args config.workingDir = .ok call.command)
      (ha : c.admitted call.place? = .ok ()) (hr : (call.reply c s).outcome = .error f)
      (hf : ∀ cause, f ≠ .service cause) :
      Course c config d args s (.error f) (call.replied c s)

variable {c : Setting σ} {config : Config} {d : Spec} {args : List Text} {s t : Session σ}
variable {outcome : Except Failure Int}

/-- A failure of the arguments that is no misuse is passed on. -/
theorem run_of_malformed {f : Failure} (hp : parse d args config.workingDir = .error f)
    (hu : ∀ cause, f ≠ .usage cause) : run c config d args = throw f := by
  rw [run, hp]
  cases f with
  | usage cause => exact absurd rfl (hu cause)
  | _ => rfl

/-- A command that makes a call comes to what the call comes to. -/
theorem exec_run_of_call {call : Call} (hp : parse d args config.workingDir = .ok call.command) :
    exec (run c config d args) s = call.run c s := by
  rw [run, hp]
  exact exec_execute c call s

/-- There is a way for every command. -/
theorem exists_course (c : Setting σ) (config : Config) (d : Spec) (args : List Text)
    (s : Session σ) : ∃ outcome t, Course c config d args s outcome t := by
  rcases hp : parse d args config.workingDir with f | command
  · -- a misuse is answered by the command, any other failure is passed on
    by_cases hu : ∃ cause, f = .usage cause
    · obtain ⟨cause, rfl⟩ := hu
      exact ⟨_, _, .misused hp⟩
    · exact ⟨_, _, .malformed hp fun cause hc => hu ⟨cause, hc⟩⟩
  · rcases help_or_call hp with ⟨topic, rfl⟩ | ⟨call, rfl⟩
    · rcases topic with - | topic
      · exact ⟨_, _, .explainedAll hp⟩
      · rcases ht : resolve (.char '-' :: withoutDashes topic) with f | t
        · exact ⟨_, _, .unknownTopic hp ht⟩
        · exact ⟨_, _, .explained hp ht⟩
    · rcases ha : c.admitted call.place? with f | ⟨⟩
      · exact ⟨_, _, .turnedAway hp ha⟩
      · rcases hr : (call.reply c s).outcome with f | result
        · -- the command answers what the service reports, and nothing else
          by_cases hf : ∃ cause, f = .service cause
          · obtain ⟨cause, rfl⟩ := hf
            exact ⟨_, _, .failed hp ha hr⟩
          · exact ⟨_, _, .broken hp ha hr fun cause hc => hf ⟨cause, hc⟩⟩
        · exact ⟨_, _, .served hp ha hr⟩

/-- The way determines the outcome and the traces. -/
theorem exec_of_course (h : Course c config d args s outcome t) :
    exec (run c config d args) s = (outcome, t) := by
  cases h with
  | misused hp =>
    rw [run, hp]
    rfl
  | malformed hp hu => rw [run_of_malformed hp hu, exec_throw]
  | explainedAll hp =>
    rw [run, hp]
    rfl
  | explained hp ht =>
    rw [run, hp]
    simp only [execute, runHelp, ht]
    rfl
  | unknownTopic hp ht =>
    rw [run, hp]
    simp only [execute, runHelp, ht]
    rfl
  | turnedAway hp ha =>
    rw [exec_run_of_call hp, Call.run, ha]
  | served hp ha hr =>
    rw [exec_run_of_call hp, Call.run, ha]
    simp only [hr]
  | failed hp ha hr =>
    rw [exec_run_of_call hp, Call.run, ha]
    simp only [hr]
  | @broken call f hp ha hr hf =>
    rw [exec_run_of_call hp, Call.run, ha]
    simp only [hr]

/-- **Every command goes one of these ways.** -/
theorem course (c : Setting σ) (config : Config) (d : Spec) (args : List Text) (s : Session σ) :
    Course c config d args s (exec (run c config d args) s).1 (exec (run c config d args) s).2 := by
  obtain ⟨outcome, t, h⟩ := exists_course c config d args s
  rw [exec_of_course h]
  exact h

end Command

/-! ### A whole run -/

namespace Dispatch

/-- The traces before anything is done in a world. -/
def fresh (w : σ) : Session σ := { world := w }

/-- The traces when a command starts. -/
def started (c : Setting σ) (w : σ) (d : Command.Spec) (args : List Text) : Session σ :=
  (fresh w).noted c
    [c.event .info "command_start" [("command", .text d.name), ("args", .list (args.map .text))]]

/-- The traces when a command is done. -/
def finished (c : Setting σ) (d : Command.Spec) (status : Int) (s : Session σ) : Session σ :=
  s.noted c [c.event .info "command_finish" [("command", .text d.name), ("status", .int status)]]

/-- The traces when an invalid argument was answered. -/
def answeredInvalid (c : Setting σ) (d : Command.Spec) (cause : InvalidArgument) (s : Session σ) :
    Session σ :=
  let f := Failure.invalidArgument cause
  (s.noted c [c.event .warning "invalid_argument"
    [("command", .text d.name), ("error", .text f.message)]]).complained f.summary

/-- The traces with the short catalogue on the error stream. -/
def catalogued (s : Session σ) : Session σ :=
  ((s.complained (Command.catalog false)).complained []).complained Config.genericUsage

/-- The traces when the name of a command was not found. -/
def unresolved (name : Text) (f : Failure) (s : Session σ) : Session σ :=
  let told := s.complained f.message
  catalogued (if name.head? ≠ some (.char '-') then
    told.complained "Command names must start with dashes.".text else told)

/-- The ways in which a run can go, from a world. -/
inductive Course (c : Setting σ) (config : Config) (w : σ) :
    List Text → Except Failure Int → Session σ → Prop where
  /-- No command is named. -/
  | unnamed : Course c config w [] (.ok Status.usage) (catalogued (fresh w))
  /-- The name is that of no command. -/
  | unknown {name : Text} {args : List Text} {f : Failure}
      (hn : Command.resolve name = .error f) :
      Course c config w (name :: args) (.ok Status.usage) (unresolved name f (fresh w))
  /-- The command ends with a status. -/
  | ended {name : Text} {args : List Text} {d : Command.Spec} {status : Int} {t : Session σ}
      (hn : Command.resolve name = .ok d)
      (hc : Command.Course c config d args (started c w d args) (.ok status) t) :
      Course c config w (name :: args) (.ok status) (finished c d status t)
  /-- The command meets an invalid argument. -/
  | invalid {name : Text} {args : List Text} {d : Command.Spec} {cause : InvalidArgument}
      {t : Session σ} (hn : Command.resolve name = .ok d)
      (hc : Command.Course c config d args (started c w d args)
        (.error (.invalidArgument cause)) t) :
      Course c config w (name :: args) (.ok Status.invalidArgument)
        (finished c d Status.invalidArgument (answeredInvalid c d cause t))
  /-- The command fails in another way, and nobody answers. -/
  | escaped {name : Text} {args : List Text} {d : Command.Spec} {f : Failure} {t : Session σ}
      (hn : Command.resolve name = .ok d)
      (hc : Command.Course c config d args (started c w d args) (.error f) t)
      (hf : ∀ cause, f ≠ .invalidArgument cause) :
      Course c config w (name :: args) (.error f) t

theorem exec_complainCatalog (s : Session σ) :
    exec complainCatalog s = (.ok (), catalogued s) := rfl

theorem exec_reportUnknown (name : Text) (f : Failure) (s : Session σ) :
    exec (reportUnknown name f) s = (.ok Status.usage, unresolved name f s) := by
  unfold reportUnknown unresolved
  split <;> simp [exec_bind, exec_complainCatalog, Except.map]

/-- A failure of a command is answered if it is an invalid argument. -/
theorem exec_attempt (c : Setting σ) (config : Config) (d : Command.Spec) (args : List Text)
    (s : Session σ) :
    exec (attempt c config d args) s =
      match exec (Command.run c config d args) s with
      | (.ok status, t) => (.ok status, t)
      | (.error (.invalidArgument cause), t) =>
        (.ok Status.invalidArgument, answeredInvalid c d cause t)
      | (.error f, t) => (.error f, t) := by
  rw [attempt, exec_tryCatch]
  rcases exec (Command.run c config d args) s with ⟨f | status, t⟩
  · cases f <;> rfl
  · rfl

variable {c : Setting σ} {config : Config} {w : σ} {argv : List Text} {t : Session σ}
variable {outcome : Except Failure Int}

/-- A run whose name is that of a command frames the attempt with two events. -/
theorem exec_run_of_resolve {name : Text} {d : Command.Spec} (hn : Command.resolve name = .ok d)
    (args : List Text) :
    exec (run c config (name :: args)) (fresh w) =
      match exec (attempt c config d args) (started c w d args) with
      | (.ok status, t) => (.ok status, finished c d status t)
      | (.error f, t) => (.error f, t) := by
  simp only [run, hn, exec_bind, exec_log, exec_pure]
  unfold started
  rcases exec (attempt c config d args) _ with ⟨f | status, t⟩ <;> rfl

/-- There is a way for every run. -/
theorem exists_course (c : Setting σ) (config : Config) (w : σ) (argv : List Text) :
    ∃ outcome t, Course c config w argv outcome t := by
  rcases argv with - | ⟨name, args⟩
  · exact ⟨_, _, .unnamed⟩
  · rcases hn : Command.resolve name with f | d
    · exact ⟨_, _, .unknown hn⟩
    · obtain ⟨outcome, t, hc⟩ := Command.exists_course c config d args (started c w d args)
      rcases outcome with f | status
      · -- the dispatcher answers invalid arguments, and nothing else
        by_cases hf : ∃ cause, f = .invalidArgument cause
        · obtain ⟨cause, rfl⟩ := hf
          exact ⟨_, _, .invalid hn hc⟩
        · exact ⟨_, _, .escaped hn hc fun cause h => hf ⟨cause, h⟩⟩
      · exact ⟨_, _, .ended hn hc⟩

/-- The way determines the outcome and the traces. -/
theorem exec_of_course (h : Course c config w argv outcome t) :
    exec (run c config argv) (fresh w) = (outcome, t) := by
  cases h with
  | unnamed => rfl
  | @unknown name args f hn =>
    have : run c config (name :: args) = reportUnknown name f := by simp only [run, hn]
    rw [this, exec_reportUnknown]
  | ended hn hc => rw [exec_run_of_resolve hn, exec_attempt, Command.exec_of_course hc]
  | invalid hn hc => rw [exec_run_of_resolve hn, exec_attempt, Command.exec_of_course hc]
  | @escaped name args d f t hn hc hf =>
    rw [exec_run_of_resolve hn, exec_attempt, Command.exec_of_course hc]
    cases f with
    | invalidArgument cause => exact absurd rfl (hf cause)
    | _ => rfl

/-- **Every run goes one of these ways.** -/
theorem course (c : Setting σ) (config : Config) (w : σ) (argv : List Text) :
    Course c config w argv (exec (run c config argv) (fresh w)).1
      (exec (run c config argv) (fresh w)).2 := by
  obtain ⟨outcome, t, h⟩ := exists_course c config w argv
  rw [exec_of_course h]
  exact h

/-! ### What is asked for -/

/-- The arguments name a command and ask for this. -/
def Asks (config : Config) (argv : List Text) (command : Command) : Prop :=
  ∃ name args d, argv = name :: args ∧ Command.resolve name = .ok d ∧
    Command.parse d args config.workingDir = .ok command

/-- The arguments name a command, and have no meaning for it. -/
def Rejected (config : Config) (argv : List Text) (f : Failure) : Prop :=
  ∃ name args d, argv = name :: args ∧ Command.resolve name = .ok d ∧
    Command.parse d args config.workingDir = .error f

/-- Arguments ask for one thing. -/
theorem Asks.unique {one other : Command} (h : Asks config argv one)
    (h' : Asks config argv other) : one = other := by
  obtain ⟨name, args, d, rfl, hn, hp⟩ := h
  obtain ⟨_, _, d', he, hn', hp'⟩ := h'
  cases he
  cases hn.symm.trans hn'
  cases hp.symm.trans hp'
  rfl

/-- Arguments that are rejected ask for nothing. -/
theorem Rejected.not_asks {f : Failure} {command : Command} (h : Rejected config argv f) :
    ¬ Asks config argv command := by
  obtain ⟨name, args, d, rfl, hn, hp⟩ := h
  rintro ⟨_, _, d', he, hn', hp'⟩
  cases he
  cases hn.symm.trans hn'
  cases hp.symm.trans hp'

end Dispatch

end CodingPolicy
