/-
CodingPolicy/Proofs/Status.lean

What a status tells about a run.  A status speaks of four channels at once:
whether the service was asked for, which calls were made on it, and what
stands on the two streams.  `Dispatch.ending` lists the ways in which a run
can end that gives a status, each with all four channels; the classes of
statuses are read off that list.

Main result: `classes_of_status`, for every service that fails only in its
own way, and for whatever decides which places it serves.
-/
import CodingPolicy.Proofs.Memory
import CodingPolicy.Proofs.Record

namespace CodingPolicy

open SessionM

variable {σ : Type}

/-! ### Services -/

namespace Backend

/-- A call that succeeds is answered with at least one line. -/
theorem lines_ne_nil {b : Backend σ} {call : Call} {w : σ} {result : Call.Result}
    (h : (b.perform call w).outcome = .ok result) : call.lines result ≠ [] := by
  cases call with
  | list =>
    obtain ⟨known, -, rfl⟩ := map_eq_ok.1 h
    simp [Call.lines, Command.Answer.policies]
  | get p =>
    obtain ⟨inEffect, -, rfl⟩ := map_eq_ok.1 h
    simp [Call.lines]
  | set p name =>
    obtain ⟨_, -, rfl⟩ := map_eq_ok.1 h
    simp [Call.lines]
  | unset p =>
    obtain ⟨_, -, rfl⟩ := map_eq_ok.1 h
    simp [Call.lines]

end Backend

/-- In the world and in those that logging makes of it, every failure of the
service is one that it reports as its own. -/
def Setting.FailsOnItsOwn (c : Setting σ) (w : σ) : Prop :=
  ∀ (events : List Log.Event) call f,
    (c.backend.perform call (events.foldl (fun w e => c.record e w) w)).outcome = .error f →
      ∃ cause, f = .service cause

/-- A namespace in memory over a valid state fails on its own. -/
theorem Setting.failsOnItsOwn_inMemory {admits : NamespacePath → Except Failure Unit} {now : Text}
    {s : State} (hs : s.Valid) :
    (inMemory admits now).FailsOnItsOwn s := by
  intro events call f h
  have hw : events.foldl (fun w e => (inMemory admits now).record e w) s = s := by
    induction events with
    | nil => rfl
    | cons e events ih => exact ih h
  rw [hw] at h
  exact Backend.own_of_perform hs h

/-! ### Failures on one line -/

/-- The line is the first of the text. -/
def Text.IsFirstLine (t line : Text) : Prop :=
  (∀ x ∈ line, isLineBreak x = false) ∧
    ∃ rest, t = line ++ rest ∧ ∀ x, rest.head? = some x → isLineBreak x = true

theorem Text.isFirstLine_firstLine (t : Text) : IsFirstLine t (firstLine t) := by
  refine ⟨fun x => not_isLineBreak_of_mem_firstLine, t.dropWhile fun x => !isLineBreak x, ?_, ?_⟩
  · exact List.takeWhile_append_dropWhile.symm
  · exact fun x => Text.of_head?_dropWhile

/-- The text is a single line: the failure's kind and the first line of its message. -/
def Failure.ToldOnOneLine (f : Failure) (text : Text) : Prop :=
  ∃ line, Text.IsFirstLine f.message line ∧ (∀ x ∈ f.kind, Text.isLineBreak x = false) ∧
    text = f.kind ++ ": ".text ++ line ++ [.char '\n']

/-- A kind stands on one line. -/
theorem Failure.not_isLineBreak_of_mem_kind (f : Failure) :
    ∀ x ∈ f.kind, Text.isLineBreak x = false := by
  have literal : ∀ {t : Text}, t.all (fun x => !Text.isLineBreak x) = true →
      ∀ x ∈ t, Text.isLineBreak x = false := by
    intro t ht x hx
    simpa using List.all_eq_true.1 ht x hx
  cases f with
  | usage cause => cases cause <;> exact literal rfl
  | service cause =>
    cases cause with
    | special kind details => exact kind.oneLine
    | _ => exact literal rfl
  | _ => exact literal rfl

theorem Failure.toldOnOneLine_summary (f : Failure) :
    f.ToldOnOneLine (f.summary ++ [.char '\n']) := by
  refine ⟨_, Text.isFirstLine_firstLine _, f.not_isLineBreak_of_mem_kind, ?_⟩
  simp [summary, CodingPolicy.said]

/-! ### The four channels -/

/-- What a run shows of itself. -/
structure Channels where
  /-- The places that the service was asked for. -/
  contacts : List (Option Text) := []
  /-- The calls that were made. -/
  visits : List Visit := []
  /-- The text on the output stream. -/
  out : Text := []
  /-- The text on the error stream. -/
  err : Text := []

/-- The channels of a session whose calls are on record. -/
def Session.channels (s : Session (σ × List Visit)) : Channels :=
  { contacts := s.contacts, visits := s.world.2, out := s.out, err := s.err }

namespace Session

variable (s : Session (σ × List Visit)) (c : Setting σ)

@[simp] theorem channels_noted (events : List Log.Event) :
    (s.noted c.recorded events).channels = s.channels := by
  simp [channels, c.foldl_record_recorded]

@[simp] theorem channels_complained (line : Text) :
    (s.complained line).channels =
      { s.channels with err := s.channels.err ++ line ++ [.char '\n'] } := rfl

@[simp] theorem channels_said (line : Text) :
    (s.said line).channels =
      { s.channels with out := s.channels.out ++ line ++ [.char '\n'] } := rfl

@[simp] theorem channels_saidAll (lines : List Text) :
    (s.saidAll lines).channels =
      { s.channels with out := s.channels.out ++ lines.flatMap (· ++ [.char '\n']) } := by
  rw [saidAll_eq]
  rfl

@[simp] theorem channels_contacted (p : Option NamespacePath) :
    (s.contacted p).channels =
      { s.channels with contacts := s.channels.contacts ++ [p.map NamespacePath.render] } := rfl

/-- A call that was made is on record with what it came to. -/
@[simp] theorem channels_replied (call : Call) :
    (call.replied c.recorded s).channels =
      { s.channels with
        contacts := s.channels.contacts ++ [call.place?.map NamespacePath.render]
        visits := s.channels.visits ++ [⟨call, (call.reply c.recorded s).outcome⟩] } := by
  have h := c.backend.perform_recorded call s.world
  unfold Call.replied answered
  rw [channels_noted]
  simp [channels, Call.reply, Setting.recorded, h]

end Session

/-! ### The ends of runs -/

namespace Dispatch

/-- The ways in which a run can end that gives a status. -/
inductive Ending (c : Setting σ) (config : Config) (argv : List Text) : Int → Channels → Prop where
  /-- Nothing was asked for that could be done. -/
  | misused {err : Text} (ha : ¬ Asks config argv (.help none)) (he : err ≠ []) :
      Ending c config argv Status.usage { err }
  /-- All commands were explained. -/
  | explainedAll {err : Text} (ha : Asks config argv (.help none)) (he : err ≠ []) :
      Ending c config argv Status.ok { err }
  /-- One command was explained. -/
  | explained {topic out : Text} (ha : Asks config argv (.help (some topic))) (ho : out ≠ []) :
      Ending c config argv Status.ok { out }
  /-- The service did what it was asked for. -/
  | served {call : Call} {result : Call.Result} {out : Text} (ha : Asks config argv call.command)
      (hp : c.admitted call.place? = .ok ()) (ho : out ≠ []) :
      Ending c config argv Status.ok
        { contacts := [call.place?.map NamespacePath.render], visits := [⟨call, .ok result⟩], out }
  /-- The service reported a failure. -/
  | failed {call : Call} {cause : ServiceFailure} (ha : Asks config argv call.command)
      (hp : c.admitted call.place? = .ok ()) :
      Ending c config argv Status.service
        { contacts := [call.place?.map NamespacePath.render]
          visits := [⟨call, .error (.service cause)⟩]
          err := (Failure.service cause).summary ++ [.char '\n'] }
  /-- An argument had no meaning. -/
  | malformed {cause : InvalidArgument} (hr : Rejected config argv (.invalidArgument cause)) :
      Ending c config argv Status.invalidArgument
        { err := (Failure.invalidArgument cause).summary ++ [.char '\n'] }
  /-- The service was not there for the place. -/
  | turnedAway {call : Call} {cause : InvalidArgument} (ha : Asks config argv call.command)
      (hp : c.admitted call.place? = .error (.invalidArgument cause)) :
      Ending c config argv Status.invalidArgument
        { contacts := [call.place?.map NamespacePath.render]
          err := (Failure.invalidArgument cause).summary ++ [.char '\n'] }

variable {c : Setting σ} {config : Config} {argv : List Text} {w : σ}

theorem channels_started (w : σ) (d : Command.Spec) (args : List Text) :
    (started c.recorded (w, []) d args).channels = {} := by
  rw [started, Session.channels_noted]
  rfl

@[simp] theorem channels_finished (d : Command.Spec) (status : Int)
    (t : Session (σ × List Visit)) :
    (finished c.recorded d status t).channels = t.channels := by
  rw [finished, Session.channels_noted]

@[simp] theorem channels_answeredInvalid (d : Command.Spec) (cause : InvalidArgument)
    (t : Session (σ × List Visit)) :
    (answeredInvalid c.recorded d cause t).channels =
      { t.channels with
        err := t.channels.err ++ (Failure.invalidArgument cause).summary ++ [.char '\n'] } := by
  rw [answeredInvalid, Session.channels_complained, Session.channels_noted]

/-- The catalogue is not empty. -/
theorem err_catalogued_ne_nil (s : Session σ) : (catalogued s).err ≠ [] := by
  rw [catalogued, Session.complained_err]
  exact List.append_ne_nil_of_right_ne_nil _ (List.cons_ne_nil _ _)

theorem channels_catalogued (s : Session (σ × List Visit)) :
    (catalogued s).channels = { s.channels with err := (catalogued s).err } := by
  simp only [catalogued, Session.channels_complained, Session.complained_err]
  rfl

/-- The answer to a name that is no command is on the error stream alone. -/
theorem channels_unresolved (name : Text) (f : Failure) :
    ∃ err, err ≠ [] ∧ (unresolved name f (fresh (w, ([] : List Visit)))).channels = { err } := by
  refine ⟨(unresolved name f (fresh (w, ([] : List Visit)))).err, err_catalogued_ne_nil _, ?_⟩
  unfold unresolved
  rw [channels_catalogued]
  split <;> rfl

theorem line_ne_nil (before line : Text) : before ++ line ++ [.char '\n'] ≠ [] :=
  List.append_ne_nil_of_right_ne_nil _ (List.cons_ne_nil _ _)

/-- A command that gives a status ends in one of these ways. -/
theorem ending_of_command {name : Text} {args : List Text} {d : Command.Spec} {status : Int}
    {t : Session (σ × List Visit)} (hn : Command.resolve name = .ok d)
    (h : Command.Course c.recorded config d args (started c.recorded (w, []) d args)
      (.ok status) t) : Ending c config (name :: args) status t.channels := by
  have h0 := channels_started (c := c) w d args
  cases h with
  | misused hp =>
    rw [Session.channels_complained, h0]
    exact .misused (Rejected.not_asks ⟨name, args, d, rfl, hn, hp⟩) (line_ne_nil _ _)
  | explainedAll hp =>
    rw [Session.channels_complained, h0]
    exact .explainedAll ⟨name, args, d, rfl, hn, hp⟩ (line_ne_nil _ _)
  | explained hp ht =>
    rw [Session.channels_said, h0]
    exact .explained ⟨name, args, d, rfl, hn, hp⟩ (line_ne_nil _ _)
  | unknownTopic hp ht =>
    rw [Session.channels_complained, h0]
    refine .misused (fun ha => ?_) (line_ne_nil _ _)
    -- help on one topic is not help on all commands
    cases ha.unique ⟨name, args, d, rfl, hn, hp⟩
  | @served call result hp ha hr =>
    rw [Session.channels_saidAll, Session.channels_noted, Session.channels_replied, h0, hr]
    refine .served ⟨name, args, d, rfl, hn, hp⟩ ?_ ?_
    · rw [← c.admitted_recorded, ha]
    · -- an answer has a line, and every line ends in a line break
      obtain ⟨line, hl⟩ := List.exists_mem_of_ne_nil _ (Backend.lines_ne_nil hr)
      have hnewline : .char '\n' ∈ line ++ [.char '\n'] :=
        List.mem_append_right _ (List.mem_singleton_self _)
      exact List.ne_nil_of_mem (List.mem_flatMap.2 ⟨line, hl, hnewline⟩)
  | @failed call cause hp ha hr =>
    rw [Session.channels_complained, Session.channels_noted, Session.channels_replied, h0, hr]
    refine .failed ⟨name, args, d, rfl, hn, hp⟩ ?_
    rw [← c.admitted_recorded, ha]

/-- A command that meets an invalid argument found it before any call was made. -/
theorem ending_of_invalid (hs : c.FailsOnItsOwn w) {name : Text} {args : List Text}
    {d : Command.Spec} {cause : InvalidArgument} {t : Session (σ × List Visit)}
    (hn : Command.resolve name = .ok d)
    (h : Command.Course c.recorded config d args (started c.recorded (w, []) d args)
      (.error (.invalidArgument cause)) t) :
    Ending c config (name :: args) Status.invalidArgument
      (answeredInvalid c.recorded d cause t).channels := by
  have h0 := channels_started (c := c) w d args
  rw [channels_answeredInvalid]
  cases h with
  | malformed hp hu =>
    rw [h0]
    exact .malformed ⟨name, args, d, rfl, hn, hp⟩
  | turnedAway hp ha =>
    rw [Session.channels_contacted, h0]
    refine .turnedAway ⟨name, args, d, rfl, hn, hp⟩ ?_
    rw [← c.admitted_recorded, ha]
  | @broken call f hp ha hr hf =>
    -- the service itself never raises an invalid argument
    rw [Call.reply, show c.recorded.backend = c.backend.recorded from rfl,
      Backend.perform_recorded] at hr
    obtain ⟨cause, hc⟩ := hs [_] _ _ hr
    cases hc

/-- **Every run that gives a status ends in one of these ways.** -/
theorem ending (hs : c.FailsOnItsOwn w) {status : Int} {t : Session (σ × List Visit)}
    (h : Course c.recorded config (w, []) argv (.ok status) t) :
    Ending c config argv status t.channels := by
  cases h with
  | unnamed =>
    rw [channels_catalogued]
    refine .misused ?_ (err_catalogued_ne_nil _)
    rintro ⟨name, args, d, he, -⟩
    cases he
  | unknown hn =>
    obtain ⟨err, he, ht⟩ := channels_unresolved (w := w) _ _
    rw [ht]
    refine .misused ?_ he
    rintro ⟨_, _, d, hargv, hn', -⟩
    cases hargv
    cases hn.symm.trans hn'
  | ended hn hc =>
    rw [channels_finished]
    exact ending_of_command hn hc
  | invalid hn hc =>
    rw [channels_finished]
    exact ending_of_invalid hs hn hc

/-! ### The classes -/

/-- What a status says about the four channels. -/
structure StatusClasses (c : Setting σ) (config : Config) (argv : List Text) (status : Int)
    (t : Channels) : Prop where
  /-- There are four statuses. -/
  known : status ∈ [Status.ok, Status.usage, Status.service, Status.invalidArgument]
  /-- A misuse is found before the service is asked for. -/
  usage : status = Status.usage → t.contacts = []
  /-- An invalid argument is found before a call is made. -/
  invalid : status = Status.invalidArgument → t.visits = []
  /-- The service was there for the place, and the one call on it failed. -/
  service : status = Status.service ↔ ∃ call cause,
    t.contacts = [call.place?.map NamespacePath.render] ∧ c.admitted call.place? = .ok () ∧
      t.visits = [⟨call, .error (.service cause)⟩]
  /-- The explanation of all commands stands on the error stream. -/
  help : Asks config argv (.help none) → status = Status.ok ∧ t.out = [] ∧ t.err ≠ []
  /-- Any other answer stands on the output stream. -/
  success : status = Status.ok → ¬ Asks config argv (.help none) → t.out ≠ [] ∧ t.err = []
  /-- Anything but an answer stands on the error stream. -/
  failure : status ≠ Status.ok → t.out = [] ∧ t.err ≠ []
  /-- A failure of the service is told on one line. -/
  service_told : status = Status.service → ∀ visit ∈ t.visits, ∀ f, visit.outcome = .error f →
    f.ToldOnOneLine t.err
  /-- An invalid argument is told on one line, be it one of the arguments or a place that
  the service is not there for. -/
  invalid_told : status = Status.invalidArgument → ∃ cause,
    (Rejected config argv (.invalidArgument cause) ∨
      ∃ call : Call, Asks config argv call.command ∧
        c.admitted call.place? = .error (.invalidArgument cause)) ∧
      (Failure.invalidArgument cause).ToldOnOneLine t.err

namespace Ending

variable {status : Int} {t : Channels}

theorem status_mem (h : Ending c config argv status t) :
    status ∈ [Status.ok, Status.usage, Status.service, Status.invalidArgument] := by
  cases h <;> decide

theorem contacts_eq_nil (h : Ending c config argv status t) (hs : status = Status.usage) :
    t.contacts = [] := by
  cases h with
  | misused => rfl
  | _ => exact absurd hs (by decide)

theorem visits_eq_nil (h : Ending c config argv status t) (hs : status = Status.invalidArgument) :
    t.visits = [] := by
  cases h with
  | malformed => rfl
  | turnedAway => rfl
  | _ => exact absurd hs (by decide)

theorem service_iff (h : Ending c config argv status t) :
    status = Status.service ↔ ∃ call cause,
      t.contacts = [call.place?.map NamespacePath.render] ∧ c.admitted call.place? = .ok () ∧
        t.visits = [⟨call, .error (.service cause)⟩] := by
  constructor
  · intro hs
    cases h with
    | @failed call cause ha hp => exact ⟨call, cause, rfl, hp, rfl⟩
    | _ => exact absurd hs (by decide)
  · rintro ⟨call, cause, -, -, hv⟩
    cases h with
    | failed => rfl
    | _ => cases hv

theorem of_help (h : Ending c config argv status t) (ha : Asks config argv (.help none)) :
    status = Status.ok ∧ t.out = [] ∧ t.err ≠ [] := by
  -- the arguments ask for one thing, so only one end is left
  have hcall : ∀ call : Call, ¬ Asks config argv call.command := by
    intro call hc
    cases call <;> cases ha.unique hc
  cases h with
  | misused hn => exact absurd ha hn
  | explainedAll _ he => exact ⟨rfl, rfl, he⟩
  | explained hs => cases ha.unique hs
  | served hc => exact absurd hc (hcall _)
  | failed hc => exact absurd hc (hcall _)
  | malformed hr => exact absurd ha hr.not_asks
  | turnedAway hc => exact absurd hc (hcall _)

theorem of_ok (h : Ending c config argv status t) (hs : status = Status.ok)
    (ha : ¬ Asks config argv (.help none)) : t.out ≠ [] ∧ t.err = [] := by
  cases h with
  | explainedAll ha' => exact absurd ha' ha
  | explained _ ho => exact ⟨ho, rfl⟩
  | served _ _ ho => exact ⟨ho, rfl⟩
  | _ => exact absurd hs (by decide)

theorem of_ne_ok (h : Ending c config argv status t) (hs : status ≠ Status.ok) :
    t.out = [] ∧ t.err ≠ [] := by
  cases h with
  | misused _ he => exact ⟨rfl, he⟩
  | failed => exact ⟨rfl, by simp⟩
  | malformed => exact ⟨rfl, by simp⟩
  | turnedAway => exact ⟨rfl, by simp⟩
  | _ => exact absurd rfl hs

theorem service_toldOnOneLine (h : Ending c config argv status t) (hs : status = Status.service) :
    ∀ visit ∈ t.visits, ∀ f, visit.outcome = .error f → f.ToldOnOneLine t.err := by
  cases h with
  | failed =>
    rintro visit hv f hf
    cases List.mem_singleton.1 hv
    cases hf
    exact Failure.toldOnOneLine_summary _
  | _ => exact absurd hs (by decide)

theorem invalid_toldOnOneLine (h : Ending c config argv status t)
    (hs : status = Status.invalidArgument) :
    ∃ cause, (Rejected config argv (.invalidArgument cause) ∨
      ∃ call : Call, Asks config argv call.command ∧
        c.admitted call.place? = .error (.invalidArgument cause)) ∧
      (Failure.invalidArgument cause).ToldOnOneLine t.err := by
  cases h with
  | @malformed cause hr => exact ⟨cause, .inl hr, Failure.toldOnOneLine_summary _⟩
  | @turnedAway call cause ha hp =>
    exact ⟨cause, .inr ⟨call, ha, hp⟩, Failure.toldOnOneLine_summary _⟩
  | _ => exact absurd hs (by decide)

theorem classes (h : Ending c config argv status t) : StatusClasses c config argv status t where
  known := h.status_mem
  usage := h.contacts_eq_nil
  invalid := h.visits_eq_nil
  service := h.service_iff
  help := h.of_help
  success := h.of_ok
  failure := h.of_ne_ok
  service_told := h.service_toldOnOneLine
  invalid_told := h.invalid_toldOnOneLine

end Ending

/-! ### At most one contact -/

/-- A command asks for the service once at most. -/
theorem length_contacts_command {c : Setting σ} {d : Command.Spec} {args : List Text}
    {outcome : Except Failure Int} {t : Session σ}
    (h : Command.Course c config d args (started c w d args) outcome t) :
    t.contacts.length ≤ 1 := by
  cases h with
  | served hp ha hr =>
    rw [Session.saidAll_eq]
    exact Nat.le_refl 1
  | _ => simp [started, fresh, Call.replied, Session.answered]

/-- A run asks for the service once at most, also one that gives no status. -/
theorem length_contacts_le_one {c : Setting σ} {outcome : Except Failure Int} {t : Session σ}
    (h : Course c config w argv outcome t) : t.contacts.length ≤ 1 := by
  cases h with
  | unnamed => exact Nat.zero_le _
  | unknown hn =>
    unfold unresolved
    split <;> exact Nat.zero_le _
  | ended hn hc => exact (length_contacts_command hc :)
  | invalid hn hc => exact (length_contacts_command hc :)
  | escaped hn hc hf => exact length_contacts_command hc

end Dispatch

/-! ### Main result -/

namespace Dispatch

/-- **What a status says about a run.**  Whatever the service, if it fails only
in its own way, and whichever places it is there for: a run asks for it once at
most, and its status tells the rest.  The calls are those that a run with a
record makes, and that run is the run without it but for the record.  A
namespace in memory changes only where a change is answered with success, and
then in its assignments alone. -/
theorem classes_of_status (c : Setting σ) (config : Config) (argv : List Text) (w : σ)
    (hs : c.FailsOnItsOwn w) :
    exec (run c config argv) (fresh w) =
      ((exec (run c.recorded config argv) (fresh (w, []))).1,
        (exec (run c.recorded config argv) (fresh (w, []))).2.plain) ∧
    (exec (run c config argv) (fresh w)).2.contacts.length ≤ 1 ∧
    (∀ status, (exec (run c config argv) (fresh w)).1 = .ok status →
      StatusClasses c config argv status
        (exec (run c.recorded config argv) (fresh (w, []))).2.channels) ∧
    ∀ admits now s, (exec (run (.inMemory admits now) config argv) (fresh s)).2.world ≠ s →
      (exec (run (.inMemory admits now) config argv) (fresh s)).1 = .ok Status.ok ∧
      (∃ call : Call, call.IsChange ∧ Asks config argv call.command) ∧
      (exec (run (.inMemory admits now) config argv) (fresh s)).2.world.policies = s.policies ∧
      (exec (run (.inMemory admits now) config argv) (fresh s)).2.world.files = s.files := by
  have hplain := exec_run_plain c config argv w []
  -- the classes are read off the run on record, the changes off the run in memory
  refine ⟨hplain, length_contacts_le_one (course c config w argv), ?_, ?_⟩
  · intro status ho
    rw [hplain] at ho
    have hc := course c.recorded config (w, []) argv
    rw [ho] at hc
    exact (ending hs hc).classes
  · intro admits now s hne
    exact change_of_world_ne (course _ config s argv) hne

/-- A service that fails is asked once, and the failure is told. -/
theorem classes_of_failing_service :
    StatusClasses
      ({ backend := .failing (.service (.other [.text "a\nb".text])), admits := fun _ => .ok (),
         now := [] } : Setting Unit)
      { defaultFs := Config.defaultFileSystem, stateFile := {}, workingDir := [.char '/'],
        logFile := none }
      ["-listPolicies".text] Status.service
      { contacts := [none]
        visits := [⟨.list, .error (.service (.other [.text "a\nb".text]))⟩]
        err := "NamespaceError: a\n".text } := by
  refine (classes_of_status _ _ ["-listPolicies".text] () ?_).2.2.1 Status.service rfl
  intro events call f h
  cases call <;> cases h <;> exact ⟨_, rfl⟩

end Dispatch

end CodingPolicy
