/-
CodingPolicy/Proofs/Session.lean

Running actions.  An action takes the traces of a session and gives traces
back, together with a value or a failure.  Each primitive action is given
here as a plain change of the traces, so that the run of a longer action can
be computed by rewriting, without looking into the monad again:

* `exec_bind` and `exec_tryCatch` take composed actions apart;
* `exec_say`, `exec_complain`, `exec_logAll`, `exec_contact` and `exec_call`
  say what a primitive does to the traces.
-/
import Mathlib.Tactic.Simps.Basic
import CodingPolicy.Command.Session

namespace CodingPolicy

variable {σ α β : Type}

/-! ### Changes of the traces -/

namespace Session

/-- The session with one line more on the output stream. -/
@[simps] def said (s : Session σ) (line : Text) : Session σ :=
  { s with out := s.out ++ line ++ [.char '\n'] }

/-- The session with one line more on the error stream. -/
@[simps] def complained (s : Session σ) (line : Text) : Session σ :=
  { s with err := s.err ++ line ++ [.char '\n'] }

/-- The session after events were logged. -/
@[simps] def noted (c : Setting σ) (s : Session σ) (events : List Log.Event) : Session σ :=
  { s with
    world := events.foldl (fun w e => c.record e w) s.world
    events := s.events ++ events }

/-- The session after the service was asked for. -/
@[simps] def contacted (s : Session σ) (p : Option NamespacePath) : Session σ :=
  { s with contacts := s.contacts ++ [p.map NamespacePath.render] }

/-- The session with another world. -/
@[simps] def moved (s : Session σ) (w : σ) : Session σ :=
  { s with world := w }

/-- The session after the service replied. -/
def answered (c : Setting σ) (s : Session σ) (reply : Reply σ α) : Session σ :=
  (s.moved reply.world).noted c reply.events

theorem noted_nil (c : Setting σ) (s : Session σ) : s.noted c [] = s := by
  simp [noted]

/-- The session with several lines more on the output stream. -/
def saidAll (s : Session σ) (lines : List Text) : Session σ :=
  lines.foldl said s

@[simp] theorem saidAll_cons (s : Session σ) (line : Text) (lines : List Text) :
    s.saidAll (line :: lines) = (s.said line).saidAll lines := rfl

@[simp] theorem saidAll_nil (s : Session σ) : s.saidAll [] = s := rfl

/-- Saying lines touches nothing but the output stream. -/
theorem saidAll_eq (s : Session σ) (lines : List Text) :
    s.saidAll lines = { s with out := s.out ++ lines.flatMap (· ++ [.char '\n']) } := by
  induction lines generalizing s with
  | nil => simp only [saidAll_nil, List.flatMap_nil, List.append_nil]
  | cons line lines ih => simp [ih, said]

end Session

/-- The event of a name with its fields, at the time of the setting. -/
def Setting.event (c : Setting σ) (level : Log.Level) (name : String)
    (fields : List (String × Log.Value)) : Log.Event :=
  .make c.now level name.text (fields.map fun f => (f.1.text, f.2))

/-- A place may be asked for; the default file system always may. -/
def Setting.admitted (c : Setting σ) : Option NamespacePath → Except Failure Unit
  | none => .ok ()
  | some p => c.admits p

/-! ### Running -/

namespace SessionM

/-- The outcome of an action and the traces after it. -/
def exec (m : SessionM σ α) (s : Session σ) : Except Failure α × Session σ :=
  m.run.run s

variable {s : Session σ} {c : Setting σ}

@[simp] theorem exec_pure (a : α) : exec (pure a) s = (.ok a, s) := rfl

@[simp] theorem exec_throw (f : Failure) : exec (throw f : SessionM σ α) s = (.error f, s) := rfl

/-- The rest of an action runs on what its first part leaves, unless that fails. -/
theorem exec_bind (m : SessionM σ α) (k : α → SessionM σ β) :
    exec (m >>= k) s =
      match exec m s with
      | (.ok a, t) => exec (k a) t
      | (.error f, t) => (.error f, t) := by
  unfold exec ExceptT.run StateT.run
  simp only [bind, ExceptT.bind, ExceptT.mk, StateT.bind]
  rcases m s with ⟨_ | _, t⟩ <;> rfl

@[simp] theorem exec_map (g : α → β) (m : SessionM σ α) :
    exec (g <$> m) s = ((exec m s).1.map g, (exec m s).2) := by
  rw [map_eq_pure_bind, exec_bind]
  rcases exec m s with ⟨_ | _, t⟩ <;> rfl

/-- A failure is answered on the traces that it leaves. -/
theorem exec_tryCatch (m : SessionM σ α) (h : Failure → SessionM σ α) :
    exec (tryCatch m h) s =
      match exec m s with
      | (.ok a, t) => (.ok a, t)
      | (.error f, t) => exec (h f) t := by
  unfold exec ExceptT.run StateT.run
  simp only [tryCatch, tryCatchThe, MonadExceptOf.tryCatch, ExceptT.tryCatch, ExceptT.mk, bind,
    StateT.bind]
  rcases m s with ⟨_ | _, t⟩ <;> rfl

/-! ### The primitive actions -/

@[simp] theorem exec_get : exec (get : SessionM σ (Session σ)) s = (.ok s, s) := rfl

@[simp] theorem exec_modify (g : Session σ → Session σ) :
    exec (modify g) s = (.ok (), g s) := rfl

@[simp] theorem exec_say (line : Text) : exec (say line) s = (.ok (), s.said line) := rfl

@[simp] theorem exec_complain (line : Text) :
    exec (complain line) s = (.ok (), s.complained line) := rfl

@[simp] theorem exec_logAll (events : List Log.Event) :
    exec (logAll c events) s = (.ok (), s.noted c events) := rfl

@[simp] theorem exec_log (level : Log.Level) (name : String)
    (fields : List (String × Log.Value)) :
    exec (log c level name fields) s =
      (.ok (), s.noted c [c.event level name fields]) := rfl

@[simp] theorem exec_sayAll (lines : List Text) :
    exec (forM lines say) s = (.ok (), s.saidAll lines) := by
  induction lines generalizing s with
  | nil => rfl
  | cons line lines ih =>
    rw [List.forM_cons, exec_bind, exec_say, Session.saidAll_cons]
    exact ih

/-- The service is asked for first, and only then does a place turn out not to be served. -/
theorem exec_contact (p : Option NamespacePath) :
    exec (contact c p) s = (c.admitted p, s.contacted p) := by
  rcases p with - | p
  · rfl
  · rcases e : c.admits p with f | ⟨⟩ <;> simp only [contact, Setting.admitted, e] <;> rfl

/-- A call leaves what its reply says; only a failure of the service itself is a result. -/
theorem exec_call (method : σ → Reply σ α) :
    exec (call c method) s =
      (match (method s.world).outcome with
        | .ok a => .ok (.ok a)
        | .error (.service cause) => .ok (.error cause)
        | .error f => .error f,
       s.answered c (method s.world)) := by
  simp only [call, exec_bind, exec_get, exec_modify, exec_logAll]
  rcases (method s.world).outcome with f | a
  · cases f <;> rfl
  · rfl

end SessionM

end CodingPolicy
