/-
CodingPolicy/Proofs/Memory.lean

Runs on a namespace that is held in memory.  Nothing but a change that was
answered with success touches the state (`Dispatch.world_of_course`), and then
the state is the one that the call leaves; with it follow what can change at
all (`Dispatch.change_of_world_ne`) and what a question is answered with
(`Dispatch.answer_of_get`).
-/
import CodingPolicy.Proofs.Course
import CodingPolicy.Proofs.Validity

namespace CodingPolicy

/-- The setting of a namespace that is held in memory. -/
def Setting.inMemory (admits : NamespacePath → Except Failure Unit) (now : Text) :
    Setting State :=
  { backend := .inMemory, admits, now }

variable {admits : NamespacePath → Except Failure Unit} {now : Text}

/-- Logging leaves a namespace in memory as it is. -/
theorem Session.world_noted_inMemory (s : Session State) (events : List Log.Event) :
    (s.noted (.inMemory admits now) events).world = s.world := by
  induction events generalizing s with
  | nil => rfl
  | cons e events ih => exact ih s

theorem Call.world_replied_inMemory (call : Call) (admits : NamespacePath → Except Failure Unit)
    (now : Text) (s : Session State) :
    (call.replied (.inMemory admits now) s).world =
      (Backend.inMemory.perform call s.world).world := by
  unfold replied Session.answered
  rw [Session.world_noted_inMemory]
  rfl

/-! ### A single command -/

namespace Command

variable {config : Config} {d : Spec} {args : List Text} {s t : Session State}
variable {outcome : Except Failure Int}

/-- A command succeeds with a change and leaves the state that the call leaves,
or it leaves the state as it is. -/
theorem world_of_course (h : Course (.inMemory admits now) config d args s outcome t) :
    (∃ call : Call, call.IsChange ∧ parse d args config.workingDir = .ok call.command ∧
      outcome = .ok Status.ok ∧
      (∃ result, (Backend.inMemory.perform call s.world).outcome = .ok result) ∧
      t.world = (Backend.inMemory.perform call s.world).world) ∨
    (t.world = s.world ∧ ∀ call : Call, call.IsChange →
      parse d args config.workingDir = .ok call.command → outcome ≠ .ok Status.ok) := by
  cases h with
  | misused hp => exact .inr ⟨rfl, fun call _ hp' => nomatch hp.symm.trans hp'⟩
  | malformed hp _ => exact .inr ⟨rfl, fun call _ hp' => nomatch hp.symm.trans hp'⟩
  | explainedAll hp =>
    refine .inr ⟨rfl, fun call _ hp' => ?_⟩
    cases call <;> cases hp.symm.trans hp'
  | explained hp _ =>
    refine .inr ⟨rfl, fun call _ hp' => ?_⟩
    cases call <;> cases hp.symm.trans hp'
  | unknownTopic hp _ =>
    refine .inr ⟨rfl, fun call _ hp' => ?_⟩
    cases call <;> cases hp.symm.trans hp'
  | turnedAway => exact .inr ⟨rfl, fun _ _ _ h => nomatch h⟩
  | @served call result hp ha hr =>
    have hw := call.world_replied_inMemory admits now s
    -- success is told of questions too, and they move nothing
    by_cases hchange : call.IsChange
    · left
      refine ⟨call, hchange, hp, rfl, ⟨result, hr⟩, ?_⟩
      rw [Session.saidAll_eq, Session.world_noted_inMemory, hw]
    · right
      refine ⟨?_, fun call' hchange' hp' => ?_⟩
      · rw [Session.saidAll_eq, Session.world_noted_inMemory, hw,
          Backend.world_of_not_isChange hchange]
      · have := Call.command_injective (Except.ok.inj (hp.symm.trans hp'))
        exact absurd (this ▸ hchange') hchange
  | @failed call cause hp ha hr =>
    refine .inr ⟨?_, fun _ _ _ h => absurd (Except.ok.inj h) (by decide)⟩
    rw [Session.complained_world, Session.world_noted_inMemory, call.world_replied_inMemory,
      Backend.world_of_error hr]
  | @broken call f hp ha hr hf =>
    refine .inr ⟨?_, fun _ _ _ h => nomatch h⟩
    rw [call.world_replied_inMemory, Backend.world_of_error hr]

end Command

/-! ### A whole run -/

namespace Dispatch

/-- The setting of a namespace in memory on the file system of the configuration. -/
def connected (config : Config) (now : Text) : Setting State :=
  .inMemory (fun p => p.checkFileSystem config.defaultFs) now

variable {config : Config} {argv : List Text} {s : State} {outcome : Except Failure Int}
variable {t : Session State}

theorem world_started (s : State) (d : Command.Spec) (args : List Text) :
    (started (.inMemory admits now) s d args).world = s :=
  Session.world_noted_inMemory _ _

theorem world_finished (d : Command.Spec) (status : Int) (t : Session State) :
    (finished (.inMemory admits now) d status t).world = t.world :=
  Session.world_noted_inMemory _ _

theorem world_answeredInvalid (d : Command.Spec) (cause : InvalidArgument) (t : Session State) :
    (answeredInvalid (.inMemory admits now) d cause t).world = t.world := by
  rw [answeredInvalid, Session.complained_world, Session.world_noted_inMemory]

/-- **A run succeeds with a change and leaves the state that the call leaves, or
it leaves the state as it is.** -/
theorem world_of_course (h : Course (.inMemory admits now) config s argv outcome t) :
    (∃ call : Call, call.IsChange ∧ Asks config argv call.command ∧ outcome = .ok Status.ok ∧
      (∃ result, (Backend.inMemory.perform call s).outcome = .ok result) ∧
      t.world = (Backend.inMemory.perform call s).world) ∨
    (t.world = s ∧ ∀ call : Call, call.IsChange → Asks config argv call.command →
      outcome ≠ .ok Status.ok) := by
  cases h with
  | unnamed =>
    refine .inr ⟨rfl, ?_⟩
    rintro call - ⟨_, _, _, he, -⟩
    cases he
  | unknown hn =>
    right
    constructor
    · unfold unresolved
      split <;> rfl
    · rintro call - ⟨_, _, _, he, hn', -⟩
      cases he
      cases hn.symm.trans hn'
  | @ended name args d status t hn hc =>
    rw [world_finished]
    have hc := Command.world_of_course hc
    rw [world_started] at hc
    rcases hc with ⟨call, hchange, hp, ho, hr, hw⟩ | ⟨hw, hne⟩
    · exact .inl ⟨call, hchange, ⟨name, args, d, rfl, hn, hp⟩, ho, hr, hw⟩
    · refine .inr ⟨hw, ?_⟩
      rintro call hchange ⟨_, _, _, he, hn', hp'⟩
      cases he
      cases hn.symm.trans hn'
      exact hne call hchange hp'
  | @invalid name args d cause t hn hc =>
    rw [world_finished, world_answeredInvalid]
    have hc := Command.world_of_course hc
    rw [world_started] at hc
    rcases hc with ⟨call, -, -, ho, -⟩ | ⟨hw, -⟩
    · cases ho
    · exact .inr ⟨hw, fun _ _ _ h => absurd (Except.ok.inj h) (by decide)⟩
  | @escaped name args d f t hn hc hf =>
    have hc := Command.world_of_course hc
    rw [world_started] at hc
    rcases hc with ⟨call, -, -, ho, -⟩ | ⟨hw, -⟩
    · cases ho
    · exact .inr ⟨hw, fun _ _ _ h => nomatch h⟩

/-- The state is another one only after a change that succeeded, and then in its
assignments alone. -/
theorem change_of_world_ne (h : Course (.inMemory admits now) config s argv outcome t)
    (hne : t.world ≠ s) :
    outcome = .ok Status.ok ∧ (∃ call : Call, call.IsChange ∧ Asks config argv call.command) ∧
      t.world.policies = s.policies ∧ t.world.files = s.files := by
  rcases world_of_course h with ⟨call, hchange, ha, ho, -, hw⟩ | ⟨hw, -⟩
  · rw [hw] at hne ⊢
    rcases Backend.perform_inMemory call s with h | ⟨-, -, hpol, hfiles⟩
    · exact absurd h hne
    · exact ⟨ho, ⟨call, hchange, ha⟩, hpol, hfiles⟩
  · exact absurd hw hne

/-- A question that succeeds is answered with the inherited name. -/
theorem answer_of_get (h : Course (.inMemory admits now) config s argv (.ok Status.ok) t)
    {q : NamespacePath} (ha : Asks config argv (.getPolicy q)) :
    t.out = (s.inheritedName? q).getD (Command.Answer.unspecified q.render) ++ [.char '\n'] := by
  obtain ⟨name, args, d, rfl, hn, hp⟩ := ha
  cases h with
  | @ended _ _ d' _ t hn' hc =>
    cases hn.symm.trans hn'
    -- of the ways to succeed, the explanations are not for a question
    cases hc with
    | explainedAll hp' => cases hp.symm.trans hp'
    | explained hp' _ => cases hp.symm.trans hp'
    | @served call result hp' _ hr =>
      have hcall : call = .get q := Call.command_injective (Except.ok.inj (hp'.symm.trans hp))
      subst hcall
      rw [Call.reply, world_started] at hr
      obtain ⟨inEffect, he, rfl⟩ := map_eq_ok.1 hr
      rw [State.effectivePolicy_eq_ok he]
      show [] ++ _ = _
      cases s.inheritedName? q <;> rfl

end Dispatch

end CodingPolicy
