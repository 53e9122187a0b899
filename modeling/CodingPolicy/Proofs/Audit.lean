/-
CodingPolicy/Proofs/Audit.lean

The log as a record of what was done.  The events of a run that ends with a
status are framed by its start and its end, and between them stands at most one
event: `Dispatch.Told` says which, by what was asked for and by the status, and
`Dispatch.Audited` puts the frame around it.  Both carry the state that is left,
so a run changes the state just where an event tells of a change.

Such an event holds the path as text.  The text of a place that was read is read
as that place again (`NamespacePath.parse_render_of_parse`), so that the events
alone, read in order, lead from the assignments at the start to those at the end
(`Dispatch.replay_of_audited`).  The working directory must not hold the
characters that `NamespacePath.isOutsidePath` names.

Main result: `Dispatch.audit_trail`.
-/
import CodingPolicy.Proofs.History
import CodingPolicy.Proofs.Spelling

namespace CodingPolicy

/-! ### Events read back -/

namespace Log.Event

/-- The text of a member. -/
def text? (e : Event) (key : String) : Option Text :=
  match Entries.get? key.text e.members with
  | some (.string t) => some t
  | _ => none

/-- The change that an event tells of: the text of the path, and the policy that
was set there, or none where one was taken away. -/
def change? (e : Event) : Option (Text × Option Text) :=
  if e.text? "event" = some "policy_set".text then
    (e.text? "path").bind fun path => (e.text? "policy").map fun name => (path, some name)
  else if e.text? "event" = some "policy_unset".text then
    (e.text? "path").map fun path => (path, none)
  else none

/-- The assignments after the change that an event tells of, its path read from a
working directory. -/
def replayed (workingDir : Text) (m : OrderedMap Text Text) (e : Event) :
    Except Failure (OrderedMap Text Text) :=
  match e.change? with
  | none => .ok m
  | some (path, none) => (NamespacePath.parse workingDir path).map fun p => m.erase p.path
  | some (path, some name) =>
    (NamespacePath.parse workingDir path).map fun p => m.insert p.path name

/-- The assignments after the changes that events tell of, one after the other. -/
def replay (workingDir : Text) (m : OrderedMap Text Text) (events : List Event) :
    Except Failure (OrderedMap Text Text) :=
  events.foldlM (replayed workingDir) m

variable {workingDir : Text} {m : OrderedMap Text Text} {e : Event} {events : List Event}

theorem replay_cons (workingDir : Text) (m : OrderedMap Text Text) (e : Event)
    (events : List Event) :
    replay workingDir m (e :: events) =
      replayed workingDir m e >>= fun m => replay workingDir m events := rfl

/-- Events are replayed after those before them. -/
theorem replay_append (workingDir : Text) (m : OrderedMap Text Text) (before after : List Event) :
    replay workingDir m (before ++ after) =
      replay workingDir m before >>= fun m => replay workingDir m after :=
  List.foldlM_append

/-- An event that tells of no change is passed over. -/
theorem replay_of_change?_eq_none (h : e.change? = none) :
    replay workingDir m (e :: events) = replay workingDir m events := by
  rw [replay_cons, replayed, h]
  rfl

end Log.Event

namespace Setting

variable {σ : Type} {c : Setting σ} {level : Log.Level} {name : String}
variable {fields : List (String × Log.Value)}

/-- An event has its name, unless a field takes the place of the name. -/
theorem text?_event (c : Setting σ) (level : Log.Level) (name : String)
    (hf : ∀ f ∈ fields, f.1 ≠ "event") :
    (c.event level name fields).text? "event" = some name.text := by
  have hkeys : "event".text ∉
      ((fields.map fun f => (f.1.text, f.2)).map fun f => (f.1, f.2.toJson)).map Prod.fst := by
    simp only [List.map_map, List.mem_map, Function.comp_apply, not_exists, not_and]
    exact fun f hmem he => hf f hmem (String.text_inj.1 he)
  rw [Log.Event.text?, event, Log.Event.make, Entries.get?_merge_of_not_mem hkeys]
  rfl

/-- Only the events of two names tell of a change; the others are passed over. -/
theorem replay_event (hf : ∀ f ∈ fields, f.1 ≠ "event") (hset : name ≠ "policy_set")
    (hunset : name ≠ "policy_unset") {workingDir : Text} {m : OrderedMap Text Text}
    {events : List Log.Event} :
    Log.Event.replay workingDir m (c.event level name fields :: events) =
      Log.Event.replay workingDir m events := by
  have hname := text?_event c level name hf
  refine Log.Event.replay_of_change?_eq_none ?_
  rw [Log.Event.change?, hname,
    if_neg fun h => hset (String.text_inj.1 (Option.some.inj h)),
    if_neg fun h => hunset (String.text_inj.1 (Option.some.inj h))]

/-- The change of a policy that was set. -/
theorem change?_policy_set (path policy : Text) :
    (c.event level "policy_set" [("path", .text path), ("policy", .text policy)]).change? =
      some (path, some policy) := by
  simp [Log.Event.change?, Log.Event.text?, event, Log.Event.make, Entries.merge, Entries.insert,
    Entries.get?, Log.Value.toJson]

/-- The change of a policy that was taken away. -/
theorem change?_policy_unset (path : Text) :
    (c.event level "policy_unset" [("path", .text path)]).change? = some (path, none) := by
  simp [Log.Event.change?, Log.Event.text?, event, Log.Event.make, Entries.merge, Entries.insert,
    Entries.get?, Log.Value.toJson]

end Setting

/-! ### Events of a call in memory -/

namespace Backend

variable {s : State}

/-- A namespace in memory logs nothing itself. -/
theorem events_perform_inMemory (call : Call) (s : State) :
    (inMemory.perform call s).events = [] := by
  cases call with
  | list => rfl
  | get p => rfl
  | set p name =>
    rw [perform_set]
    rcases s.setPolicy p name with f | t <;> rfl
  | unset p =>
    rw [perform_unset]
    rcases s.unsetPolicy p with f | t <;> rfl

/-- A call in memory has no invalid arguments. -/
theorem perform_ne_invalidArgument (call : Call) (s : State) (cause : InvalidArgument) :
    (inMemory.perform call s).outcome ≠ .error (.invalidArgument cause) := by
  intro h
  cases call with
  | list => cases h
  | get p =>
    have h : s.effectivePolicy p = .error (.invalidArgument cause) := map_eq_error.1 h
    unfold State.effectivePolicy at h
    split at h
    · cases h
    · split at h
      · cases h
      · -- a name that is no policy is refused by the model
        have h := map_eq_error.1 h
        unfold Policy.ofName at h
        split at h <;> cases h
  | set p name =>
    obtain ⟨_, -, h⟩ := State.setPolicy_eq_error.1 (changed_eq_error.1 (map_eq_error.1 h))
    cases h
  | unset p =>
    obtain ⟨_, -, h⟩ := State.unsetPolicy_eq_error.1 (changed_eq_error.1 (map_eq_error.1 h))
    cases h

/-- A change that succeeds leaves the state that its step gives. -/
theorem eq_ok_of_changed {r : Except Failure State} (h : (changed s r).outcome = .ok ()) :
    r = .ok (changed s r).world := by
  rcases r with f | t
  · cases h
  · rfl

theorem setPolicy_of_perform {p : NamespacePath} {name : Text} {result : Call.Result}
    (h : (inMemory.perform (.set p name) s).outcome = .ok result) :
    s.setPolicy p name = .ok (inMemory.perform (.set p name) s).world := by
  obtain ⟨⟨⟩, h, -⟩ := map_eq_ok.1 h
  exact eq_ok_of_changed h

theorem unsetPolicy_of_perform {p : NamespacePath} {result : Call.Result}
    (h : (inMemory.perform (.unset p) s).outcome = .ok result) :
    s.unsetPolicy p = .ok (inMemory.perform (.unset p) s).world := by
  obtain ⟨⟨⟩, h, -⟩ := map_eq_ok.1 h
  exact eq_ok_of_changed h

end Backend

variable {admits : NamespacePath → Except Failure Unit} {now : Text} {config : Config}

/-- An explanation is no call of the service. -/
theorem Call.help_ne_command {call : Call} {topic : Option Text} :
    Command.help topic ≠ call.command := by
  cases call <;> nofun

theorem Call.events_replied_inMemory (call : Call) (s : Session State) :
    (call.replied (.inMemory admits now) s).events = s.events := by
  have hevents : (call.reply (.inMemory admits now) s).events = [] :=
    Backend.events_perform_inMemory call s.world
  unfold replied Session.answered
  rw [hevents, Session.noted_nil]
  rfl

namespace Dispatch

open SessionM

/-! ### One run -/

/-- What a run over a state tells between its start and its end, with the status
it ends with and the state it leaves. -/
inductive Told (c : Setting State) (config : Config) (s : State) (argv : List Text) :
    Int → List Log.Event → State → Prop
  /-- A policy was set. -/
  | set {p : NamespacePath} {name : Text} {t : State} (ha : Asks config argv (.setPolicy p name))
      (ht : s.setPolicy p name = .ok t) :
      Told c config s argv Status.ok
        [c.event .info "policy_set" [("path", .text p.render), ("policy", .text name)]] t
  /-- A policy was taken away. -/
  | unset {p : NamespacePath} {t : State} (ha : Asks config argv (.unsetPolicy p))
      (ht : s.unsetPolicy p = .ok t) :
      Told c config s argv Status.ok [c.event .info "policy_unset" [("path", .text p.render)]] t
  /-- The service reported a failure. -/
  | failed {call : Call} {cause : ServiceFailure} (ha : Asks config argv call.command)
      (hf : (Backend.inMemory.perform call s).outcome = .error (.service cause)) :
      Told c config s argv Status.service
        [c.event .warning "namespace_call_failed"
          [("operation", .text call.operation.text),
            ("path", (call.place?.map NamespacePath.render).elim .null .text),
            ("error_type", .text (Failure.service cause).kind),
            ("error", .text (Failure.service cause).message)]] s
  /-- An argument was invalid, in itself or for the service. -/
  | invalid {name : Text} {args : List Text} {cause : InvalidArgument} (he : argv = name :: args)
      (hc : Rejected config argv (.invalidArgument cause) ∨ ∃ call : Call,
        Asks config argv call.command ∧
          c.admitted call.place? = .error (.invalidArgument cause)) :
      Told c config s argv Status.invalidArgument
        [c.event .warning "invalid_argument"
          [("command", .text name), ("error", .text (Failure.invalidArgument cause).message)]] s
  /-- All went well, and what was asked for is no change. -/
  | answered {command : Command} (ha : Asks config argv command)
      (hno : ∀ call : Call, call.IsChange → command ≠ call.command) :
      Told c config s argv Status.ok [] s
  /-- The command was called the wrong way. -/
  | misused : Told c config s argv Status.usage [] s

/-- The events of a whole run over a state, with the status it ends with and the
state it leaves. -/
inductive Audited (c : Setting State) (config : Config) (s : State) :
    List Text → Int → List Log.Event → State → Prop
  /-- No command was found, and nothing is told. -/
  | unresolved {argv : List Text}
      (hn : ∀ name args d, argv = name :: args → Command.resolve name ≠ .ok d) :
      Audited c config s argv Status.usage [] s
  /-- The command was found, and its start and its end are told. -/
  | resolved {name : Text} {args : List Text} {d : Command.Spec} {status : Int}
      {between : List Log.Event} {t : State} (hn : Command.resolve name = .ok d)
      (hb : Told c config s (name :: args) status between t) :
      Audited c config s (name :: args) status
        (c.event .info "command_start"
            [("command", .text name), ("args", .list (args.map .text))] ::
          (between ++
            [c.event .info "command_finish" [("command", .text name), ("status", .int status)]])) t

variable {name : Text} {args argv : List Text} {d : Command.Spec} {s u : State} {status : Int}
variable {t : Session State}

/-- A command is found under its own name. -/
theorem name_of_resolve (hn : Command.resolve name = .ok d) : d.name = name := by
  obtain ⟨n, rfl, rfl⟩ := Command.eq_spec_of_resolve hn
  cases n <;> rfl

/-- What is told between the start and the end of a command stands between them. -/
theorem events_finished (hn : Command.resolve name = .ok d) {c : Setting State}
    {between : List Log.Event} (h : t.events = (started c s d args).events ++ between)
    (status : Int) :
    (finished c d status t).events =
      c.event .info "command_start"
          [("command", .text name), ("args", .list (args.map .text))] ::
        (between ++
          [c.event .info "command_finish" [("command", .text name), ("status", .int status)]]) := by
  have hstart : (started c s d args).events =
      [c.event .info "command_start"
        [("command", .text d.name), ("args", .list (args.map .text))]] := rfl
  rw [finished, Session.noted_events, h, hstart, name_of_resolve hn, List.singleton_append,
    List.cons_append]

/-- What is told of a call that succeeds is what it changed. -/
theorem told_of_served {call : Call} {result : Call.Result}
    (ha : Asks config argv call.command)
    (hr : (Backend.inMemory.perform call s).outcome = .ok result) :
    Told (.inMemory admits now) config s argv Status.ok (call.changeEvents (.inMemory admits now))
      (Backend.inMemory.perform call s).world := by
  have hquestion (hq : ¬ call.IsChange) (other : Call) (hchange : other.IsChange) :
      call.command ≠ other.command := by
    intro he
    cases Call.command_injective he
    exact hq hchange
  cases call with
  | list => exact .answered ha (hquestion id)
  | get p => exact .answered ha (hquestion id)
  | set p policy => exact .set ha (Backend.setPolicy_of_perform hr)
  | unset p => exact .unset ha (Backend.unsetPolicy_of_perform hr)

/-- **What a command tells that ends with a status.** -/
theorem told_of_course (hn : Command.resolve name = .ok d) {s : Session State}
    (h : Command.Course (.inMemory admits now) config d args s (.ok status) t) :
    ∃ between, t.events = s.events ++ between ∧
      Told (.inMemory admits now) config s.world (name :: args) status between t.world := by
  have asks {command : Command} (hp : Command.parse d args config.workingDir = .ok command) :
      Asks config (name :: args) command := ⟨name, args, d, rfl, hn, hp⟩
  cases h with
  | misused => exact ⟨[], (List.append_nil _).symm, .misused⟩
  | explainedAll hp =>
    exact ⟨[], (List.append_nil _).symm, .answered (asks hp) fun _ _ => Call.help_ne_command⟩
  | explained hp =>
    exact ⟨[], (List.append_nil _).symm, .answered (asks hp) fun _ _ => Call.help_ne_command⟩
  | unknownTopic => exact ⟨[], (List.append_nil _).symm, .misused⟩
  | @served call result hp _ hr =>
    refine ⟨call.changeEvents (.inMemory admits now), ?_, ?_⟩
    · rw [Session.saidAll_eq, Session.noted_events, call.events_replied_inMemory]
    · rw [Session.saidAll_eq, Session.world_noted_inMemory, call.world_replied_inMemory]
      exact told_of_served (asks hp) hr
  | @failed call cause hp _ hr =>
    refine ⟨[call.failureEvent (.inMemory admits now) cause], ?_, ?_⟩
    · rw [Session.complained_events, Session.noted_events, call.events_replied_inMemory]
    · rw [Session.complained_world, Session.world_noted_inMemory, call.world_replied_inMemory,
        Backend.world_of_error hr]
      exact .failed (asks hp) hr

/-- A command that meets an invalid argument has told nothing and changed nothing. -/
theorem quiet_of_invalid {cause : InvalidArgument} (hn : Command.resolve name = .ok d)
    {s : Session State} (h : Command.Course (.inMemory admits now) config d args s
      (.error (.invalidArgument cause)) t) :
    t.events = s.events ∧ t.world = s.world ∧
      (Rejected config (name :: args) (.invalidArgument cause) ∨ ∃ call : Call,
        Asks config (name :: args) call.command ∧
          (Setting.inMemory admits now).admitted call.place? =
            .error (.invalidArgument cause)) := by
  cases h with
  | malformed hp => exact ⟨rfl, rfl, .inl ⟨name, args, d, rfl, hn, hp⟩⟩
  | @turnedAway call _ hp ha =>
    exact ⟨rfl, rfl, .inr ⟨call, ⟨name, args, d, rfl, hn, hp⟩, ha⟩⟩
  | @broken call _ hp ha hr =>
    -- the namespace in memory has no such failure
    exact absurd hr (Backend.perform_ne_invalidArgument call s.world cause)

/-- A name that is no command is answered, and nothing is told. -/
theorem quiet_of_unknown (name : Text) (f : Failure) (s : State) :
    (unresolved name f (fresh s)).events = [] ∧ (unresolved name f (fresh s)).world = s := by
  unfold unresolved
  split <;> exact ⟨rfl, rfl⟩

/-- **What a run tells that ends with a status.** -/
theorem audited_of_course (h : Course (.inMemory admits now) config s argv (.ok status) t) :
    Audited (.inMemory admits now) config s argv status t.events t.world := by
  cases h with
  | unnamed => exact .unresolved nofun
  | @unknown name args f hn =>
    obtain ⟨hevents, hworld⟩ := quiet_of_unknown name f s
    rw [hevents, hworld]
    refine .unresolved fun _ _ d he hok => ?_
    cases he
    cases hn.symm.trans hok
  | ended hn hc =>
    obtain ⟨between, hevents, htold⟩ := told_of_course hn hc
    rw [world_finished, events_finished hn hevents]
    exact .resolved hn htold
  | @invalid name args d cause t hn hc =>
    obtain ⟨hevents, hworld, hcause⟩ := quiet_of_invalid hn hc
    have hanswered : (answeredInvalid (.inMemory admits now) d cause t).events =
        (started (.inMemory admits now) s d args).events ++
          [(Setting.inMemory admits now).event .warning "invalid_argument"
            [("command", .text name),
              ("error", .text (Failure.invalidArgument cause).message)]] := by
      rw [answeredInvalid, Session.complained_events, Session.noted_events, hevents,
        name_of_resolve hn]
    rw [world_finished, world_answeredInvalid, hworld, world_started,
      events_finished hn hanswered]
    exact .resolved hn (.invalid rfl hcause)

/-! ### Replaying -/

/-- Events that frame a run tell of no change. -/
theorem replay_frame {c : Setting State} {workingDir : Text} {m : OrderedMap Text Text}
    (name : Text) (args : List Text) (status : Int) (between : List Log.Event) :
    Log.Event.replay workingDir m
        (c.event .info "command_start"
            [("command", .text name), ("args", .list (args.map .text))] ::
          (between ++
            [c.event .info "command_finish" [("command", .text name), ("status", .int status)]])) =
      Log.Event.replay workingDir m between := by
  rw [Setting.replay_event (by simp) (by simp) (by simp), Log.Event.replay_append]
  rcases Log.Event.replay workingDir m between with f | m'
  · rfl
  · rw [ok_bind, Setting.replay_event (by simp) (by simp) (by simp)]
    rfl

/-- The text of a place that is asked for is read as the place. -/
theorem parse_render_of_asks (hw : ∀ c ∈ config.workingDir, NamespacePath.isOutsidePath c = false)
    (call : Call) {p : NamespacePath} (ha : Asks config argv call.command)
    (hp : call.place? = some p) (workingDir : Text) :
    NamespacePath.parse workingDir p.render = .ok p := by
  obtain ⟨name, args, d, rfl, hn, hparse⟩ := ha
  obtain ⟨n, -, rfl⟩ := Command.eq_spec_of_resolve hn
  obtain ⟨raw, -, hraw⟩ := Command.pathText_of_call hparse hp
  exact NamespacePath.parse_render_of_parse hw hraw workingDir

/-- **The events of a command lead to the assignments that it leaves.** -/
theorem replay_of_told (hw : ∀ c ∈ config.workingDir, NamespacePath.isOutsidePath c = false)
    {c : Setting State} {events : List Log.Event} (h : Told c config s argv status events u)
    (workingDir : Text) :
    Log.Event.replay workingDir s.assignments events = .ok u.assignments := by
  cases h with
  | @set p policy t ha ht =>
    obtain ⟨-, -, rfl⟩ := State.setPolicy_eq_ok.1 ht
    have hp := parse_render_of_asks hw (.set p policy) ha rfl workingDir
    rw [Log.Event.replay_cons, Log.Event.replayed, Setting.change?_policy_set]
    dsimp only
    rw [hp]
    rfl
  | @unset p t ha ht =>
    obtain ⟨-, -, rfl⟩ := State.unsetPolicy_eq_ok.1 ht
    have hp := parse_render_of_asks hw (.unset p) ha rfl workingDir
    rw [Log.Event.replay_cons, Log.Event.replayed, Setting.change?_policy_unset]
    dsimp only
    rw [hp]
    rfl
  | failed => exact Setting.replay_event (by simp) (by simp) (by simp)
  | invalid => exact Setting.replay_event (by simp) (by simp) (by simp)
  | answered => rfl
  | misused => rfl

/-- **The events of a run lead to the assignments that it leaves.** -/
theorem replay_of_audited (hw : ∀ c ∈ config.workingDir, NamespacePath.isOutsidePath c = false)
    {c : Setting State} {events : List Log.Event} (h : Audited c config s argv status events u)
    (workingDir : Text) :
    Log.Event.replay workingDir s.assignments events = .ok u.assignments := by
  cases h with
  | unresolved => rfl
  | resolved hn hb =>
    rw [replay_frame]
    exact replay_of_told hw hb workingDir

/-! ### All runs -/

/-- Runs over one namespace in memory, one after the other, each at its own time;
the service is there for the places that are admitted. -/
def sequence (admits : NamespacePath → Except Failure Unit) (config : Config) :
    State → List (Text × List Text) → List Turn
  | _, [] => []
  | s, (now, argv) :: r =>
    let result := exec (run (.inMemory admits now) config argv) (fresh s)
    { argv, outcome := result.1, traces := result.2 } :: sequence admits config result.2.world r

/-- The state that runs leave. -/
def left (s : State) (made : List Turn) : State :=
  made.foldl (fun _ turn => turn.traces.world) s

/-- A run that ends with a status is audited, from the state it was called over. -/
theorem audited_of_exec (ho : (exec (run (.inMemory admits now) config argv) (fresh s)).1 =
    .ok status) :
    Audited (.inMemory admits now) config s argv status
      (exec (run (.inMemory admits now) config argv) (fresh s)).2.events
      (exec (run (.inMemory admits now) config argv) (fresh s)).2.world := by
  have hcourse := course (.inMemory admits now) config s argv
  rw [ho] at hcourse
  exact audited_of_course hcourse

/-- **Each of the runs is audited**, over the state that the runs before it leave. -/
theorem audited_of_sequence {rounds : List (Text × List Text)} {earlier later : List Turn}
    {turn : Turn} (h : sequence admits config s rounds = earlier ++ turn :: later)
    (ho : turn.outcome = .ok status) :
    ∃ now, Audited (.inMemory admits now) config (left s earlier) turn.argv status
      turn.traces.events turn.traces.world := by
  induction earlier generalizing s rounds with
  | nil =>
    rcases rounds with - | ⟨⟨now, argv⟩, r⟩
    · cases h
    · cases h
      exact ⟨now, audited_of_exec ho⟩
  | cons first earlier ih =>
    rcases rounds with - | ⟨⟨now, argv⟩, r⟩
    · cases h
    · rw [sequence, List.cons_append, List.cons_eq_cons] at h
      obtain ⟨rfl, h⟩ := h
      exact ih h

/-- **The events of all runs lead to the assignments that they leave.** -/
theorem replay_of_sequence (hw : ∀ c ∈ config.workingDir, NamespacePath.isOutsidePath c = false)
    {rounds : List (Text × List Text)}
    (hall : ∀ turn ∈ sequence admits config s rounds, ∃ status, turn.outcome = .ok status)
    (workingDir : Text) :
    Log.Event.replay workingDir s.assignments
        ((sequence admits config s rounds).flatMap fun turn => turn.traces.events) =
      .ok (left s (sequence admits config s rounds)).assignments := by
  induction rounds generalizing s with
  | nil => rfl
  | cons round rounds ih =>
    obtain ⟨now, argv⟩ := round
    rw [sequence] at hall ⊢
    obtain ⟨status, ho⟩ := hall _ (.head _)
    have hfirst := replay_of_audited hw (audited_of_exec ho) workingDir
    rw [List.flatMap_cons, Log.Event.replay_append, hfirst, ok_bind]
    exact ih fun turn hturn => hall turn (.tail _ hturn)

/-- **The log is an audit trail.**  Where all of the runs end with a status, each
of them tells what it was called with, what it did and how it ended, and the
events of all of them, read in order, lead from the assignments at the start to
those at the end, in their order. -/
theorem audit_trail (admits : NamespacePath → Except Failure Unit) (config : Config) (s : State)
    (rounds : List (Text × List Text))
    (hw : ∀ c ∈ config.workingDir, NamespacePath.isOutsidePath c = false)
    (hall : ∀ turn ∈ sequence admits config s rounds, ∃ status, turn.outcome = .ok status) :
    (∀ earlier turn later, sequence admits config s rounds = earlier ++ turn :: later →
      ∃ now status, turn.outcome = .ok status ∧
        Audited (.inMemory admits now) config (left s earlier) turn.argv status
          turn.traces.events turn.traces.world) ∧
    ∀ workingDir, Log.Event.replay workingDir s.assignments
        ((sequence admits config s rounds).flatMap fun turn => turn.traces.events) =
      .ok (left s (sequence admits config s rounds)).assignments := by
  refine ⟨fun earlier turn later h => ?_, replay_of_sequence hw hall⟩
  have hmem : turn ∈ sequence admits config s rounds := by
    rw [h]
    exact List.mem_append_cons_self
  obtain ⟨status, ho⟩ := hall turn hmem
  obtain ⟨now, haudited⟩ := audited_of_sequence h ho
  exact ⟨now, status, ho, haudited⟩

/-- Runs of all kinds: a change, a change of the same path in another spelling, an
invalid argument, a failure of the service, and no command at all. -/
theorem audit_trail_of_all_kinds :
    let config : Config :=
      { defaultFs := Config.defaultFileSystem, stateFile := {}, workingDir := "/".text,
        logFile := none }
    let rounds : List (Text × List Text) :=
      [([], ["-setPolicy".text, "-path".text, "ecfs://a/b/../c".text, "-policy".text,
          "XOR-2-1-1024k".text]),
        ([], ["-setPolicy".text, "-path".text, "c".text, "-policy".text,
          "RS-3-2-1024k".text]),
        ([], ["-setPolicy".text, "-path".text, [], "-policy".text,
          "RS-3-2-1024k".text]),
        ([], ["-unsetPolicy".text, "-path".text, "/d".text]),
        ([], ["setPolicy".text])]
    let made := sequence (fun _ => .ok ()) config {} rounds
    (∀ c ∈ config.workingDir, NamespacePath.isOutsidePath c = false) ∧
      (∀ turn ∈ made, ∃ status, turn.outcome = .ok status) ∧
      made.map Turn.outcome = [.ok Status.ok, .ok Status.ok, .ok Status.invalidArgument,
        .ok Status.service, .ok Status.usage] ∧
      Log.Event.replay config.workingDir {} (made.flatMap fun turn => turn.traces.events) =
        .ok (left {} made).assignments := by
  intro config rounds made
  have hw : ∀ c ∈ config.workingDir, NamespacePath.isOutsidePath c = false :=
    List.forall_mem_singleton.2 rfl
  have houtcomes : made.map Turn.outcome = [.ok Status.ok, .ok Status.ok,
      .ok Status.invalidArgument, .ok Status.service, .ok Status.usage] := rfl
  have hall : ∀ turn ∈ made, ∃ status, turn.outcome = .ok status := by
    intro turn hturn
    have hmem : turn.outcome ∈ made.map Turn.outcome := List.mem_map_of_mem hturn
    rw [houtcomes] at hmem
    simp only [List.mem_cons, List.not_mem_nil, or_false] at hmem
    rcases hmem with h | h | h | h | h <;> exact ⟨_, h⟩
  exact ⟨hw, hall, houtcomes, (audit_trail _ config {} rounds hw hall).2 config.workingDir⟩

end Dispatch

end CodingPolicy
