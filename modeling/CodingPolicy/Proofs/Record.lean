/-
CodingPolicy/Proofs/Record.lean

Calls on record.  Which calls a run makes is not seen from its traces, so a
service is given one more component in its world, where every call is written
down with what it came to (`Backend.recorded`).

Main result: the record changes nothing else about a run
(`Dispatch.exec_run_plain`).
-/
import CodingPolicy.Proofs.Course

namespace CodingPolicy

open SessionM

variable {σ α : Type}

/-! ### Calls on record -/

/-- A call that was made, and what it came to. -/
structure Visit where
  /-- The call. -/
  call : Call
  /-- What it came to. -/
  outcome : Except Failure Call.Result

namespace Backend

/-- A method that puts its calls on record. -/
def recording (call : Call) (g : α → Call.Result) (method : σ → Reply σ α) (w : σ × List Visit) :
    Reply (σ × List Visit) α :=
  let reply := method w.1
  { outcome := reply.outcome
    world := (reply.world, w.2 ++ [⟨call, reply.outcome.map g⟩])
    events := reply.events }

/-- The service with its calls on record. -/
def recorded (b : Backend σ) : Backend (σ × List Visit) where
  list := recording .list .policies b.list
  get p := recording (.get p) .policy (b.get p)
  set p name := recording (.set p name) (fun _ => .done) (b.set p name)
  unset p := recording (.unset p) (fun _ => .done) (b.unset p)

/-- A call on record answers like the call itself, and the record grows by it. -/
theorem perform_recorded (b : Backend σ) (call : Call) (w : σ × List Visit) :
    b.recorded.perform call w =
      { outcome := (b.perform call w.1).outcome
        world := ((b.perform call w.1).world, w.2 ++ [⟨call, (b.perform call w.1).outcome⟩])
        events := (b.perform call w.1).events } := by
  cases call <;> rfl

/-- Calls on record leave the world that they leave without a record. -/
theorem after_recorded (b : Backend σ) (calls : List Call) (w : σ × List Visit) :
    (b.recorded.after calls w).1 = b.after calls w.1 := by
  induction calls generalizing w with
  | nil => rfl
  | cons call calls ih =>
    rw [after_cons, ih, b.perform_recorded]
    rfl

end Backend

/-- The setting with the calls of its service on record. -/
def Setting.recorded (c : Setting σ) : Setting (σ × List Visit) where
  backend := c.backend.recorded
  admits := c.admits
  record e w := (c.record e w.1, w.2)
  now := c.now

/-- Logging leaves the record of the calls as it is. -/
theorem Setting.foldl_record_recorded (c : Setting σ) (events : List Log.Event)
    (w : σ × List Visit) :
    events.foldl (fun w e => c.recorded.record e w) w =
      (events.foldl (fun w e => c.record e w) w.1, w.2) := by
  induction events generalizing w with
  | nil => rfl
  | cons e events ih => exact ih _

/-- Places are admitted with or without a record of the calls. -/
theorem Setting.admitted_recorded (c : Setting σ) (p : Option NamespacePath) :
    c.recorded.admitted p = c.admitted p := by
  cases p <;> rfl

/-! ### The record changes nothing -/

/-- The session without the record of the calls. -/
def Session.plain (s : Session (σ × List Visit)) : Session σ :=
  { world := s.world.1, out := s.out, err := s.err, contacts := s.contacts, events := s.events }

section Plain

variable (c : Setting σ) (s : Session (σ × List Visit))

theorem Session.plain_noted (events : List Log.Event) :
    (s.noted c.recorded events).plain = s.plain.noted c events := by
  simp only [plain, noted, c.foldl_record_recorded]

theorem Session.plain_complained (line : Text) :
    (s.complained line).plain = s.plain.complained line := rfl

theorem Session.plain_saidAll (lines : List Text) :
    (s.saidAll lines).plain = s.plain.saidAll lines := by
  rw [saidAll_eq, saidAll_eq]
  rfl

/-- The service replies as it does without a record. -/
theorem Call.reply_recorded (call : Call) :
    (call.reply c.recorded s).outcome = (call.reply c s.plain).outcome := by
  have h := c.backend.perform_recorded call s.world
  simp [reply, Setting.recorded, Session.plain, h]

theorem Call.plain_replied (call : Call) :
    (call.replied c.recorded s).plain = call.replied c s.plain := by
  have h := c.backend.perform_recorded call s.world
  unfold replied Session.answered
  rw [Session.plain_noted]
  simp [reply, Setting.recorded, Session.plain, Session.noted, h]

theorem Call.changeEvents_recorded (call : Call) :
    call.changeEvents c.recorded = call.changeEvents c := by
  cases call <;> rfl

end Plain

section Plain

variable {c : Setting σ} {config : Config} {outcome : Except Failure Int}

/-- A command goes the same way without the record. -/
theorem Command.Course.plain {d : Command.Spec} {args : List Text} {s t : Session (σ × List Visit)}
    (h : Command.Course c.recorded config d args s outcome t) :
    Command.Course c config d args s.plain outcome t.plain := by
  cases h with
  -- before the service is asked for, the way depends on the arguments alone
  | misused hp => exact .misused hp
  | malformed hp hu => exact .malformed hp hu
  | explainedAll hp => exact .explainedAll hp
  | explained hp ht => exact .explained hp ht
  | unknownTopic hp ht => exact .unknownTopic hp ht
  -- the service is there for the same places, and it replies in the same way
  | turnedAway hp ha =>
    rw [c.admitted_recorded] at ha
    exact .turnedAway hp ha
  | @served call result hp ha hr =>
    rw [c.admitted_recorded] at ha
    rw [call.reply_recorded] at hr
    rw [Session.plain_saidAll, Session.plain_noted, call.plain_replied, call.changeEvents_recorded]
    exact .served hp ha hr
  | @failed call cause hp ha hr =>
    rw [c.admitted_recorded] at ha
    rw [call.reply_recorded] at hr
    rw [Session.plain_complained, Session.plain_noted, call.plain_replied]
    exact .failed hp ha hr
  | @broken call f hp ha hr hf =>
    rw [c.admitted_recorded] at ha
    rw [call.reply_recorded] at hr
    rw [call.plain_replied]
    exact .broken hp ha hr hf

namespace Dispatch

variable {argv : List Text} {w : σ} {v : List Visit}

theorem plain_started (d : Command.Spec) (args : List Text) :
    (started c.recorded (w, v) d args).plain = started c w d args := by
  rw [started, Session.plain_noted]
  rfl

theorem plain_finished (d : Command.Spec) (status : Int) (t : Session (σ × List Visit)) :
    (finished c.recorded d status t).plain = finished c d status t.plain := by
  rw [finished, Session.plain_noted]
  rfl

theorem plain_catalogued (s : Session (σ × List Visit)) :
    (catalogued s).plain = catalogued s.plain := by
  rw [catalogued, catalogued, Session.plain_complained, Session.plain_complained,
    Session.plain_complained]

theorem plain_unresolved (name : Text) (f : Failure) (s : Session (σ × List Visit)) :
    (unresolved name f s).plain = unresolved name f s.plain := by
  unfold unresolved
  rw [plain_catalogued]
  split <;> simp only [Session.plain_complained]

theorem plain_answeredInvalid (d : Command.Spec) (cause : InvalidArgument)
    (t : Session (σ × List Visit)) :
    (answeredInvalid c.recorded d cause t).plain = answeredInvalid c d cause t.plain := by
  rw [answeredInvalid, Session.plain_complained, Session.plain_noted]
  rfl

/-- A run goes the same way without the record. -/
theorem Course.plain {t : Session (σ × List Visit)}
    (h : Course c.recorded config (w, v) argv outcome t) :
    Course c config w argv outcome t.plain := by
  cases h with
  | unnamed =>
    rw [plain_catalogued]
    exact .unnamed
  | @unknown name args f hn =>
    rw [plain_unresolved]
    exact .unknown hn
  | ended hn hc =>
    have hc := hc.plain
    rw [plain_started] at hc
    rw [plain_finished]
    exact .ended hn hc
  | @invalid name args d cause t hn hc =>
    have hc := hc.plain
    rw [plain_started] at hc
    rw [plain_finished, plain_answeredInvalid]
    exact .invalid hn hc
  | escaped hn hc hf =>
    have hc := hc.plain
    rw [plain_started] at hc
    exact .escaped hn hc hf

/-- **A run without the record gives the same status and leaves the same traces.** -/
theorem exec_run_plain (c : Setting σ) (config : Config) (argv : List Text) (w : σ)
    (v : List Visit) :
    exec (run c config argv) (fresh w) =
      ((exec (run c.recorded config argv) (fresh (w, v))).1,
        (exec (run c.recorded config argv) (fresh (w, v))).2.plain) :=
  exec_of_course (course c.recorded config (w, v) argv).plain

end Dispatch

end Plain

end CodingPolicy
