/-
CodingPolicy/Command/Session.lean

What a running command sees and leaves behind: the world of the namespace
service, the texts on its two streams, the places it asked the service for, and
the events it logged. A failure does not undo what was done before it.
-/
import CodingPolicy.Namespace.Backend

namespace CodingPolicy

/-- The traces of running commands. -/
structure Session (σ : Type) where
  /-- The world of the namespace service. -/
  world : σ
  /-- The text on the output stream. -/
  out : Text := []
  /-- The text on the error stream. -/
  err : Text := []
  /-- The places that the service was asked for, in order; nothing stands for
  the default file system. -/
  contacts : List (Option Text) := []
  /-- The events that were logged, in order. -/
  events : List Log.Event := []

/-- What commands run against. -/
structure Setting (σ : Type) where
  /-- The namespace service. -/
  backend : Backend σ
  /-- Whether a place may be asked for. -/
  admits : NamespacePath → Except Failure Unit
  /-- What an event does to the world when it is logged. -/
  record : Log.Event → σ → σ := fun _ w => w
  /-- The time. -/
  now : Text

/-- Actions that leave traces and may fail. -/
abbrev SessionM (σ : Type) := ExceptT Failure (StateM (Session σ))

namespace SessionM

variable {σ α : Type}

/-- Writes a line to the output stream. -/
def say (line : Text) : SessionM σ Unit :=
  modify fun s => { s with out := s.out ++ line ++ [.char '\n'] }

/-- Writes a line to the error stream. -/
def complain (line : Text) : SessionM σ Unit :=
  modify fun s => { s with err := s.err ++ line ++ [.char '\n'] }

/-- Logs events that were made. -/
def logAll (c : Setting σ) (events : List Log.Event) : SessionM σ Unit :=
  modify fun s =>
    { s with
      world := events.foldl (fun w e => c.record e w) s.world
      events := s.events ++ events }

/-- Logs an event. -/
def log (c : Setting σ) (level : Log.Level) (name : String) (fields : List (String × Log.Value)) :
    SessionM σ Unit :=
  logAll c [.make c.now level name.text (fields.map fun f => (f.1.text, f.2))]

/-- Asks the service for a place, or for the default file system. -/
def contact (c : Setting σ) (p : Option NamespacePath) : SessionM σ Unit := do
  modify fun s => { s with contacts := s.contacts ++ [p.map NamespacePath.render] }
  match p with
  | none => return ()
  | some p =>
    match c.admits p with
    | .ok () => return ()
    | .error f => throw f

/-- Calls the service. A failure that the service reports is a result; any
other failure is passed on. -/
def call (c : Setting σ) (method : σ → Reply σ α) : SessionM σ (Except ServiceFailure α) := do
  let reply := method (← get).world
  modify fun s => { s with world := reply.world }
  logAll c reply.events
  match reply.outcome with
  | .ok a => return .ok a
  | .error (.service cause) => return .error cause
  | .error f => throw f

end SessionM

end CodingPolicy
