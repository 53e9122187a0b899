/-
CodingPolicy/Proofs/Alike.lean

Runs with arguments that mean the same.  The first event of a run quotes the
arguments, so two such runs do not log the same, and nothing else of them should
differ.  For that the service must not see its own log: logging has to keep worlds
alike, whatever is logged in the one and in the other, and a call has to come to
the same in worlds that are alike (`Setting.LogApart`).

Main result: a run goes the same way with other arguments that mean the same
(`Dispatch.exec_run_alike`); the sessions at its end are alike (`Session.Alike`).
-/
import CodingPolicy.Proofs.Memory

namespace CodingPolicy

open SessionM

variable {σ : Type} {Same : σ → σ → Prop}

/-! ### Worlds and sessions that are alike -/

/-- The service does not see its log: worlds that are alike stay so when anything is
logged, and a call comes to the same in them. -/
structure Setting.LogApart (c : Setting σ) (Same : σ → σ → Prop) : Prop where
  /-- Logging keeps worlds alike, whatever is logged. -/
  logged : ∀ event event' w w', Same w w' → Same (c.record event w) (c.record event' w')
  /-- A call comes to the same in worlds that are alike. -/
  outcome : ∀ call w w', Same w w' →
    (c.backend.perform call w).outcome = (c.backend.perform call w').outcome
  /-- The service logs the same in worlds that are alike. -/
  events : ∀ call w w', Same w w' →
    (c.backend.perform call w).events = (c.backend.perform call w').events
  /-- A call leaves worlds alike. -/
  called : ∀ call w w', Same w w' →
    Same (c.backend.perform call w).world (c.backend.perform call w').world

/-- A namespace in memory does not see the log. -/
theorem Setting.logApart_inMemory (admits : NamespacePath → Except Failure Unit) (now : Text) :
    (inMemory admits now).LogApart (· = ·) where
  logged := by
    intro event event' w w' h
    exact h
  outcome := by
    rintro call w _ rfl
    rfl
  events := by
    rintro call w _ rfl
    rfl
  called := by
    rintro call w _ rfl
    rfl

/-- Sessions that differ in nothing but the first event, in worlds that are alike. -/
structure Session.Alike (Same : σ → σ → Prop) (s s' : Session σ) : Prop where
  /-- The worlds are alike. -/
  world : Same s.world s'.world
  /-- The texts on the output stream are the same. -/
  out : s.out = s'.out
  /-- The texts on the error stream are the same. -/
  err : s.err = s'.err
  /-- The service was asked for the same places. -/
  contacts : s.contacts = s'.contacts
  /-- The events behind the first are the same. -/
  events : s.events.tail = s'.events.tail
  /-- Nothing was logged in the one if nothing was logged in the other. -/
  quiet : s.events = [] ↔ s'.events = []

namespace Session.Alike

variable {c : Setting σ} {s s' : Session σ}

theorem complained (h : s.Alike Same s') (line : Text) :
    (s.complained line).Alike Same (s'.complained line) where
  world := h.world
  out := h.out
  err := by rw [complained_err, complained_err, h.err]
  contacts := h.contacts
  events := h.events
  quiet := h.quiet

theorem said (h : s.Alike Same s') (line : Text) : (s.said line).Alike Same (s'.said line) where
  world := h.world
  out := by rw [said_out, said_out, h.out]
  err := h.err
  contacts := h.contacts
  events := h.events
  quiet := h.quiet

theorem saidAll (h : s.Alike Same s') (lines : List Text) :
    (s.saidAll lines).Alike Same (s'.saidAll lines) := by
  induction lines generalizing s s' with
  | nil => exact h
  | cons line lines ih => exact ih (h.said line)

theorem contacted (h : s.Alike Same s') (p : Option NamespacePath) :
    (s.contacted p).Alike Same (s'.contacted p) where
  world := h.world
  out := h.out
  err := h.err
  contacts := by rw [contacted_contacts, contacted_contacts, h.contacts]
  events := h.events
  quiet := h.quiet

theorem moved (h : s.Alike Same s') {w w' : σ} (hw : Same w w') :
    (s.moved w).Alike Same (s'.moved w') where
  world := hw
  out := h.out
  err := h.err
  contacts := h.contacts
  events := h.events
  quiet := h.quiet

theorem noted (hc : c.LogApart Same) (h : s.Alike Same s') (events : List Log.Event) :
    (s.noted c events).Alike Same (s'.noted c events) where
  world := by
    rw [noted_world, noted_world]
    have hw := h.world
    generalize s.world = w at hw
    generalize s'.world = w' at hw
    induction events generalizing w w' with
    | nil => exact hw
    | cons event events ih => exact ih _ _ (hc.logged event event w w' hw)
  out := h.out
  err := h.err
  contacts := h.contacts
  events := by
    have htail := h.events
    have hquiet := h.quiet
    rw [noted_events, noted_events]
    generalize s.events = before at htail hquiet
    generalize s'.events = before' at htail hquiet
    -- either nothing stands in front of the new events, or a first one does in both
    rcases before with - | ⟨event, later⟩
    · rw [hquiet.1 rfl]
    · rcases before' with - | ⟨event', later'⟩
      · exact absurd (hquiet.2 rfl) (List.cons_ne_nil event later)
      · rw [List.tail_cons, List.tail_cons] at htail
        rw [List.cons_append, List.cons_append, List.tail_cons, List.tail_cons, htail]
  quiet := by
    rw [noted_events, noted_events, List.append_eq_nil_iff, List.append_eq_nil_iff, h.quiet]

theorem replied (hc : c.LogApart Same) (h : s.Alike Same s') (call : Call) :
    (call.replied c s).Alike Same (call.replied c s') := by
  have hmoved := (h.contacted call.place?).moved (hc.called call _ _ h.world)
  have hnoted := hmoved.noted hc (c.backend.perform call s.world).events
  unfold Call.replied Session.answered
  show Session.Alike Same _ ((_ : Session σ).noted c (c.backend.perform call s'.world).events)
  rw [← hc.events call _ _ h.world]
  exact hnoted

theorem reply_outcome (hc : c.LogApart Same) (h : s.Alike Same s') (call : Call) :
    (call.reply c s).outcome = (call.reply c s').outcome :=
  hc.outcome call _ _ h.world

end Session.Alike

/-! ### Runs that go the same way -/

variable {c : Setting σ} {config : Config} {s s' t : Session σ} {outcome : Except Failure Int}
variable {args args' : List Text}

/-- **A command goes the same way with arguments that mean the same**, from sessions
that are alike to sessions that are alike. -/
theorem Command.Course.alike {d : Spec} (hc : c.LogApart Same)
    (hargs : parse d args config.workingDir = parse d args' config.workingDir)
    (h : Course c config d args s outcome t) (hs : s.Alike Same s') :
    ∃ t', Course c config d args' s' outcome t' ∧ t.Alike Same t' := by
  cases h with
  -- the service is not asked for, and the way depends on the meaning of the arguments alone
  | misused hp => exact ⟨_, .misused (hargs ▸ hp), hs.complained _⟩
  | malformed hp hu => exact ⟨_, .malformed (hargs ▸ hp) hu, hs⟩
  | explainedAll hp => exact ⟨_, .explainedAll (hargs ▸ hp), hs.complained _⟩
  | explained hp ht => exact ⟨_, .explained (hargs ▸ hp) ht, hs.said _⟩
  | unknownTopic hp ht => exact ⟨_, .unknownTopic (hargs ▸ hp) ht, hs.complained _⟩
  | turnedAway hp ha => exact ⟨_, .turnedAway (hargs ▸ hp) ha, hs.contacted _⟩
  -- the service replies the same in worlds that are alike
  | @served call result hp ha hr =>
    rw [hs.reply_outcome hc] at hr
    exact ⟨_, .served (hargs ▸ hp) ha hr, ((hs.replied hc call).noted hc _).saidAll _⟩
  | @failed call cause hp ha hr =>
    rw [hs.reply_outcome hc] at hr
    exact ⟨_, .failed (hargs ▸ hp) ha hr, ((hs.replied hc call).noted hc _).complained _⟩
  | @broken call f hp ha hr hf =>
    rw [hs.reply_outcome hc] at hr
    exact ⟨_, .broken (hargs ▸ hp) ha hr hf, hs.replied hc call⟩

namespace Dispatch

variable {w w' : σ} {name : Text}

theorem alike_fresh (h : Same w w') : (fresh w).Alike Same (fresh w') :=
  ⟨h, rfl, rfl, rfl, rfl, Iff.rfl⟩

/-- The arguments show in the first event and nowhere else. -/
theorem alike_started (hc : c.LogApart Same) (h : Same w w') (d : Command.Spec) :
    (started c w d args).Alike Same (started c w' d args') where
  world := hc.logged _ _ w w' h
  out := rfl
  err := rfl
  contacts := rfl
  events := rfl
  quiet := by simp [started]

theorem alike_catalogued (h : s.Alike Same s') : (catalogued s).Alike Same (catalogued s') :=
  ((h.complained _).complained _).complained _

theorem alike_unresolved (h : s.Alike Same s') (name : Text) (f : Failure) :
    (unresolved name f s).Alike Same (unresolved name f s') := by
  unfold unresolved
  split
  · exact alike_catalogued ((h.complained _).complained _)
  · exact alike_catalogued (h.complained _)

/-- **A run goes the same way with arguments that mean the same.** -/
theorem Course.alike (hc : c.LogApart Same) (hw : Same w w')
    (hargs : ∀ d, Command.resolve name = .ok d →
      Command.parse d args config.workingDir = Command.parse d args' config.workingDir)
    (h : Course c config w (name :: args) outcome t) :
    ∃ t', Course c config w' (name :: args') outcome t' ∧ t.Alike Same t' := by
  cases h with
  | unknown hn => exact ⟨_, .unknown hn, alike_unresolved (alike_fresh hw) name _⟩
  | @ended _ _ d status t hn hcommand =>
    obtain ⟨t', ht', halike⟩ := hcommand.alike hc (hargs d hn) (alike_started hc hw d)
    exact ⟨_, .ended hn ht', halike.noted hc _⟩
  | @invalid _ _ d cause t hn hcommand =>
    obtain ⟨t', ht', halike⟩ := hcommand.alike hc (hargs d hn) (alike_started hc hw d)
    exact ⟨_, .invalid hn ht', ((halike.noted hc _).complained _).noted hc _⟩
  | @escaped _ _ d f t hn hcommand hf =>
    obtain ⟨t', ht', halike⟩ := hcommand.alike hc (hargs d hn) (alike_started hc hw d)
    exact ⟨t', .escaped hn ht' hf, halike⟩

/-- **With arguments that mean the same a run comes to the same**, and it leaves the
same traces but for the event that quotes the arguments. -/
theorem exec_run_alike (hc : c.LogApart Same) (config : Config) (hw : Same w w')
    (hargs : ∀ d, Command.resolve name = .ok d →
      Command.parse d args config.workingDir = Command.parse d args' config.workingDir) :
    (exec (run c config (name :: args)) (fresh w)).1 =
        (exec (run c config (name :: args')) (fresh w')).1 ∧
      (exec (run c config (name :: args)) (fresh w)).2.Alike Same
        (exec (run c config (name :: args')) (fresh w')).2 := by
  obtain ⟨t', ht', halike⟩ := (course c config w (name :: args)).alike hc hw hargs
  rw [exec_of_course ht']
  exact ⟨rfl, halike⟩

end Dispatch

end CodingPolicy
