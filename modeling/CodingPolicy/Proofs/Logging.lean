/-
CodingPolicy/Proofs/Logging.lean

What is logged, and what logging does to the world.  A property of a world and the
events logged so far (`Setting.Follows`) may depend on how the one came from the
other; if it is kept whenever an event is logged and whenever the service is called,
it holds at the end of every run (`Dispatch.Course.follows`), however the run goes.

On the way the events are gone through one by one: all of them are regular
(`Log.Event.Regular`), since their texts stand in values and never in names, and the
only number among them is a status.
-/
import CodingPolicy.Proofs.Course
import CodingPolicy.Proofs.EventLines

namespace CodingPolicy

variable {σ : Type}

/-! ### Regular events -/

namespace Setting

variable {c : Setting σ}

/-- The names of the fields of events. -/
def fieldNames : List String :=
  ["command", "args", "status", "error", "operation", "path", "error_type", "policy"]

/-- An event is regular if its values are plain and its fields have names of their own. -/
theorem regular_event {level : Log.Level} {name : String} {fields : List (String × Log.Value)}
    (hlevel : Log.Level.info.rank ≤ level.rank) (hname : .char '\n' ∉ name.text)
    (hfields : ∀ f ∈ fields, f.1 ∈ fieldNames ∧ f.2.toJson.Plain) :
    (c.event level name fields).Regular := by
  have hnames : ∀ n ∈ fieldNames, n.text ≠ Log.Event.nameKey ∧ .char '\n' ∉ n.text := by decide
  refine Log.Event.regular_make hlevel hname fun f hf => ?_
  obtain ⟨g, hg, rfl⟩ := List.mem_map.1 hf
  obtain ⟨hmem, hplain⟩ := hfields g hg
  exact ⟨(hnames g.1 hmem).1, (hnames g.1 hmem).2, hplain⟩

end Setting

/-- A list of texts is plain. -/
theorem Log.Value.plain_texts (texts : List Text) :
    (Log.Value.list (texts.map .text)).toJson.Plain := by
  refine Loggable.plain (.list fun v hv => ?_)
  obtain ⟨t, -, rfl⟩ := List.mem_map.1 hv
  exact .text t

section Events

variable (c : Setting σ)

theorem Dispatch.regular_start (d : Command.Spec) (args : List Text) :
    (c.event .info "command_start"
      [("command", .text d.name), ("args", .list (args.map .text))]).Regular := by
  refine Setting.regular_event (by decide) (by decide) fun f hf => ?_
  simp only [List.mem_cons, List.not_mem_nil, or_false] at hf
  rcases hf with rfl | rfl
  · exact ⟨by simp [Setting.fieldNames], .string d.name⟩
  · exact ⟨by simp [Setting.fieldNames], Log.Value.plain_texts args⟩

theorem Dispatch.regular_finish (d : Command.Spec) {status : Int}
    (h : (Number.natText status.natAbs).length ≤ Json.digitLimit) :
    (c.event .info "command_finish"
      [("command", .text d.name), ("status", .int status)]).Regular := by
  refine Setting.regular_event (by decide) (by decide) fun f hf => ?_
  simp only [List.mem_cons, List.not_mem_nil, or_false] at hf
  rcases hf with rfl | rfl
  · exact ⟨by simp [Setting.fieldNames], .string d.name⟩
  · exact ⟨by simp [Setting.fieldNames], .int h⟩

theorem Dispatch.regular_invalid (d : Command.Spec) (f : Failure) :
    (c.event .warning "invalid_argument"
      [("command", .text d.name), ("error", .text f.message)]).Regular := by
  refine Setting.regular_event (by decide) (by decide) fun f hf => ?_
  simp only [List.mem_cons, List.not_mem_nil, or_false] at hf
  rcases hf with rfl | rfl <;> exact ⟨by simp [Setting.fieldNames], .string _⟩

theorem Call.regular_failureEvent (call : Call) (cause : ServiceFailure) :
    (call.failureEvent c cause).Regular := by
  refine Setting.regular_event (by decide) (by decide) fun f hf => ?_
  simp only [List.mem_cons, List.not_mem_nil, or_false] at hf
  rcases hf with rfl | rfl | rfl | rfl
  · exact ⟨by simp [Setting.fieldNames], .string _⟩
  · -- a call without a place has no path
    refine ⟨by simp [Setting.fieldNames], ?_⟩
    dsimp only
    cases call.place? with
    | none => exact .null
    | some p => exact .string p.render
  · exact ⟨by simp [Setting.fieldNames], .string _⟩
  · exact ⟨by simp [Setting.fieldNames], .string _⟩

theorem Call.regular_changeEvents (call : Call) :
    ∀ event ∈ call.changeEvents c, event.Regular := by
  intro event hevent
  cases call with
  | list => cases hevent
  | get p => cases hevent
  | set p name =>
    rw [List.mem_singleton.1 hevent]
    refine Setting.regular_event (by decide) (by decide) fun f hf => ?_
    simp only [List.mem_cons, List.not_mem_nil, or_false] at hf
    rcases hf with rfl | rfl <;> exact ⟨by simp [Setting.fieldNames], .string _⟩
  | unset p =>
    rw [List.mem_singleton.1 hevent]
    refine Setting.regular_event (by decide) (by decide) fun f hf => ?_
    rw [List.mem_singleton.1 hf]
    exact ⟨by simp [Setting.fieldNames], .string _⟩

end Events

/-! ### Worlds that follow the events -/

/-- A property of a world and the events logged so far that logging keeps, and every
call of the service; what the service logs itself is regular. -/
structure Setting.Follows (c : Setting σ) (P : σ → List Log.Event → Prop) : Prop where
  /-- Logging keeps the property. -/
  logged : ∀ event w events, event.Regular → P w events → P (c.record event w) (events ++ [event])
  /-- A call keeps the property. -/
  called : ∀ call w events, P w events → P (c.backend.perform call w).world events
  /-- The service logs regular events. -/
  regular : ∀ call w, ∀ event ∈ (c.backend.perform call w).events, event.Regular

variable {c : Setting σ} {P : σ → List Log.Event → Prop} {config : Config} {w : σ}
variable {s t : Session σ} {outcome : Except Failure Int}

namespace Setting.Follows

theorem noted (hc : c.Follows P) (hs : P s.world s.events) {events : List Log.Event}
    (hr : ∀ event ∈ events, event.Regular) :
    P (s.noted c events).world (s.noted c events).events := by
  rw [Session.noted_world, Session.noted_events]
  generalize s.world = w at hs
  generalize s.events = before at hs
  induction events generalizing w before with
  | nil =>
    rw [List.append_nil]
    exact hs
  | cons event events ih =>
    obtain ⟨hevent, hr⟩ := List.forall_mem_cons.1 hr
    rw [List.foldl_cons, List.append_cons]
    exact ih hr _ _ (hc.logged event w before hevent hs)

theorem replied (hc : c.Follows P) (hs : P s.world s.events) (call : Call) :
    P (call.replied c s).world (call.replied c s).events :=
  hc.noted (s := (s.contacted call.place?).moved _) (hc.called call s.world s.events hs)
    (hc.regular call s.world)

end Setting.Follows

/-- A status has few digits. -/
theorem Command.Course.length_status {d : Command.Spec} {args : List Text} {status : Int}
    (h : Command.Course c config d args s (.ok status) t) :
    (Number.natText status.natAbs).length ≤ Json.digitLimit := by
  cases h <;> decide

/-- **At the end of a command the property holds of all that was logged.** -/
theorem Command.Course.follows {d : Command.Spec} {args : List Text} (hc : c.Follows P)
    (h : Command.Course c config d args s outcome t) (hs : P s.world s.events) :
    P t.world t.events := by
  cases h with
  | misused => exact hs
  | malformed => exact hs
  | explainedAll => exact hs
  | explained => exact hs
  | unknownTopic => exact hs
  | turnedAway => exact hs
  | @served call result hp ha hr =>
    rw [Session.saidAll_eq]
    exact hc.noted (hc.replied hs call) (call.regular_changeEvents c)
  | @failed call cause hp ha hr =>
    exact hc.noted (hc.replied hs call)
      (List.forall_mem_singleton.2 (call.regular_failureEvent c cause))
  | @broken call => exact hc.replied hs call

/-- **At the end of a run the property holds of all that was logged.** -/
theorem Dispatch.Course.follows {argv : List Text} (hc : c.Follows P)
    (h : Dispatch.Course c config w argv outcome t) (hw : P w []) : P t.world t.events := by
  have hstart (d : Command.Spec) (args : List Text) :
      P (started c w d args).world (started c w d args).events :=
    hc.noted (s := fresh w) hw (List.forall_mem_singleton.2 (regular_start c d args))
  cases h with
  | unnamed => exact hw
  | unknown hn =>
    unfold unresolved
    split <;> exact hw
  | @ended name args d status t hn hcommand =>
    exact hc.noted (hcommand.follows hc (hstart d args))
      (List.forall_mem_singleton.2 (regular_finish c d hcommand.length_status))
  | @invalid name args d cause t hn hcommand =>
    -- the answer is logged before the end of the command
    have hanswered : P (answeredInvalid c d cause t).world (answeredInvalid c d cause t).events :=
      hc.noted (hcommand.follows hc (hstart d args))
        (List.forall_mem_singleton.2 (regular_invalid c d _))
    exact hc.noted hanswered (List.forall_mem_singleton.2 (regular_finish c d (by decide)))
  | @escaped name args d f t hn hcommand hf => exact hcommand.follows hc (hstart d args)

/-- A command that is found is logged. -/
theorem Dispatch.Course.events_ne_nil {name : Text} {args : List Text} {d : Command.Spec}
    (hc : c.Follows fun _ events => events ≠ [])
    (h : Dispatch.Course c config w (name :: args) outcome t)
    (hn : Command.resolve name = .ok d) : t.events ≠ [] := by
  cases h with
  | unknown hunknown => cases hn.symm.trans hunknown
  | ended => simp [finished, Session.noted_events]
  | invalid => simp [finished, Session.noted_events]
  | escaped hd hcommand => exact hcommand.follows hc (by simp [started, Session.noted_events])

end CodingPolicy
