/-
CodingPolicy/Proofs/Call.lean

The calls of the namespace service as data.  Four commands do nothing but
make one call each and put its result into words, so what holds of a call
holds of its command: `exec_execute` gives the run of all four at once.

A *trace* is what a sequence of calls comes to, each made on a service of its
own, over one world that passes from call to call.
-/
import CodingPolicy.Command.Run
import CodingPolicy.Proofs.Session

namespace CodingPolicy

variable {σ α β : Type}

/-- A call of the namespace service. -/
inductive Call where
  /-- Lists the known policies. -/
  | list
  /-- Tells the policy in effect at a place. -/
  | get (p : NamespacePath)
  /-- Gives a place a policy of its own. -/
  | set (p : NamespacePath) (name : Text)
  /-- Takes a place's own policy away. -/
  | unset (p : NamespacePath)
  deriving DecidableEq, Repr

/-- What a call comes to that succeeds. -/
inductive Call.Result where
  /-- The known policies with the gaps. -/
  | policies (known : List (Option Policy))
  /-- The policy in effect. -/
  | policy (inEffect : Option Policy)
  /-- The change was made. -/
  | done
  deriving DecidableEq, Repr

/-! ### Making calls -/

/-- A reply with another form of its value. -/
@[simps] def Reply.map (f : α → β) (r : Reply σ α) : Reply σ β where
  outcome := r.outcome.map f
  world := r.world
  events := r.events

namespace Backend

/-- Makes a call. -/
def perform (b : Backend σ) : Call → σ → Reply σ Call.Result
  | .list, w => (b.list w).map .policies
  | .get p, w => (b.get p w).map .policy
  | .set p name, w => (b.set p name w).map fun _ => .done
  | .unset p, w => (b.unset p w).map fun _ => .done

/-- Makes calls one after the other, each on a service of its own; the outcome
of each with the world after it. -/
def trace : List (Backend σ × Call) → σ → List (Except Failure Call.Result × σ)
  | [], _ => []
  | (b, call) :: r, w =>
    let reply := b.perform call w
    (reply.outcome, reply.world) :: trace r reply.world

/-- The world that calls leave, made one after the other on one service. -/
def after (b : Backend σ) (calls : List Call) (w : σ) : σ :=
  calls.foldl (fun w call => (b.perform call w).world) w

theorem after_cons (b : Backend σ) (call : Call) (calls : List Call) (w : σ) :
    b.after (call :: calls) w = b.after calls (b.perform call w).world := rfl

end Backend

/-! ### Calls behind commands -/

namespace Call

/-- The command that makes the call. -/
def command : Call → Command
  | list => .listPolicies
  | get p => .getPolicy p
  | set p name => .setPolicy p name
  | unset p => .unsetPolicy p

theorem command_injective {one other : Call} (h : one.command = other.command) : one = other := by
  cases one <;> cases other <;> cases h <;> rfl

/-- The place that the service is asked for. -/
def place? : Call → Option NamespacePath
  | list => none
  | get p | set p _ | unset p => some p

/-- What the call is named in the log. -/
def operation : Call → String
  | list => "list_policies"
  | get _ => "get_policy"
  | set _ _ => "set_policy"
  | unset _ => "unset_policy"

/-- The lines that the result is put into. -/
def lines : Call → Result → List Text
  | list, .policies known => Command.Answer.policies ((known.filterMap id).map Policy.name)
  | get p, .policy inEffect => [inEffect.elim (Command.Answer.unspecified p.render) Policy.name]
  | set p name, .done => [Command.Answer.set name p.render]
  | unset p, .done => [Command.Answer.unset p.render]
  | _, _ => []

/-- The events of a change that was made. -/
def changeEvents (c : Setting σ) : Call → List Log.Event
  | set p name =>
    [c.event .info "policy_set" [("path", .text p.render), ("policy", .text name)]]
  | unset p => [c.event .info "policy_unset" [("path", .text p.render)]]
  | _ => []

/-- The event of a failure that the service reports. -/
def failureEvent (c : Setting σ) (call : Call) (cause : ServiceFailure) : Log.Event :=
  c.event .warning "namespace_call_failed"
    [("operation", .text call.operation.text),
      ("path", (call.place?.map NamespacePath.render).elim .null .text),
      ("error_type", .text (Failure.service cause).kind),
      ("error", .text (Failure.service cause).message)]

/-- The reply to the call in a session that has asked for the service. -/
def reply (c : Setting σ) (call : Call) (s : Session σ) : Reply σ Result :=
  c.backend.perform call s.world

/-- The session after the reply. -/
def replied (c : Setting σ) (call : Call) (s : Session σ) : Session σ :=
  (s.contacted call.place?).answered c (call.reply c s)

/-- What the command of the call comes to: the service is asked for, the call
is made, and its result or its failure is put into words. -/
def run (c : Setting σ) (call : Call) (s : Session σ) : Except Failure Int × Session σ :=
  match c.admitted call.place? with
  | .error f => (.error f, s.contacted call.place?)
  | .ok () =>
    match (call.reply c s).outcome with
    | .ok result =>
      (.ok Status.ok,
        ((call.replied c s).noted c (call.changeEvents c)).saidAll (call.lines result))
    | .error (.service cause) =>
      (.ok Status.service,
        ((call.replied c s).noted c [call.failureEvent c cause]).complained
          (Failure.service cause).summary)
    | .error f => (.error f, call.replied c s)

end Call

open SessionM in
/-- The common shape of the four commands on the service. -/
theorem exec_ask (c : Setting σ) (call : Call) {method : σ → Reply σ α} {g : α → Call.Result}
    {rest : Except ServiceFailure α → SessionM σ Int}
    (hm : ∀ w, c.backend.perform call w = (method w).map g)
    (hf : ∀ cause, rest (.error cause) =
      Command.reportFailure c call.operation (call.place?.map NamespacePath.render) cause)
    (hr : ∀ a t, exec (rest (.ok a)) t =
      (.ok Status.ok, (t.noted c (call.changeEvents c)).saidAll (call.lines (g a))))
    (s : Session σ) :
    exec (contact c call.place? >>= fun _ => SessionM.call c method >>= rest) s = call.run c s := by
  have hw : (s.contacted call.place?).world = s.world := rfl
  have ha : ∀ reply : Reply σ α, (s.contacted call.place?).answered c (reply.map g) =
      (s.contacted call.place?).answered c reply := fun _ => rfl
  rw [exec_bind, exec_contact, Call.run]
  -- a place that is not served ends the action before any call
  rcases c.admitted call.place? with f | ⟨⟩
  · rfl
  · dsimp only
    rw [exec_bind, exec_call, hw]
    unfold Call.replied Call.reply
    rw [hm, ha, Reply.map_outcome]
    rcases (method s.world).outcome with f | a
    · -- only a failure of the service itself is put into words
      cases f with
      | service cause =>
        dsimp only [Except.map]
        rw [hf, Command.reportFailure]
        simp only [exec_bind, exec_log, exec_complain, exec_pure, Call.failureEvent]
      | _ => rfl
    · exact hr a _

open SessionM in
/-- **A command on the service asks for it, makes its one call and puts the
result into words.** -/
theorem exec_execute (c : Setting σ) (call : Call) (s : Session σ) :
    exec (Command.execute c call.command) s = call.run c s := by
  cases call with
  | list =>
    -- the two that only ask log nothing
    refine exec_ask c .list (g := .policies) (fun _ => rfl) (fun _ => rfl) ?_ s
    intro a t
    simp [exec_map, exec_sayAll, Except.map, Call.changeEvents, Call.lines, Session.noted_nil]
  | get p =>
    refine exec_ask c (.get p) (g := .policy) (fun _ => rfl) (fun _ => rfl) ?_ s
    intro a t
    simp [exec_map, Except.map, Call.changeEvents, Call.lines, Session.noted_nil]
  | set p name =>
    refine exec_ask c (.set p name) (g := fun _ => .done) (fun _ => rfl) (fun _ => rfl) ?_ s
    intro a t
    simp [exec_bind, exec_map, Except.map, Call.changeEvents, Call.lines]
  | unset p =>
    refine exec_ask c (.unset p) (g := fun _ => .done) (fun _ => rfl) (fun _ => rfl) ?_ s
    intro a t
    simp [exec_bind, exec_map, Except.map, Call.changeEvents, Call.lines]

end CodingPolicy
