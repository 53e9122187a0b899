/-
CodingPolicy/Store.lean

A namespace kept in a JSON file. The state is loaded for every call and saved
after every change; a file that does not exist stands for a new namespace. A
file that cannot be read, holds no JSON or breaks the rules makes the namespace
unavailable, and so does one that cannot be written. A surrogate in the path of an
assignment is lost when the state is saved; with one anywhere else there is nothing
to write, which is found out when the file has been emptied.
-/
import CodingPolicy.Disk.Text
import CodingPolicy.Namespace.Backend

namespace CodingPolicy.Store

/-- The failure of a namespace that cannot be reached. -/
def unavailable (reason : Unavailable) : Failure :=
  .service (.unavailable reason)

/-! ### Loading -/

/-- The state that a text holds. -/
def stateOfText (file t : Text) : Except Failure State :=
  match Json.read t with
  | .error (.tooManyDigits n) => .error (.value (.tooManyDigits n))
  | .error .malformed => .error (unavailable (.noJson file))
  | .ok v =>
    match State.ofJson v with
    | .ok s => .ok s
    | .error _ => .error (unavailable (.noState file))

/-- The state that a file holds; that of a new namespace if there is no file. -/
def load (d : Disk) (p : FilePath) : Except Failure State :=
  match d.holds p with
  | .error _ => .error (.system (.nameTooLong p.render))
  | .ok false => .ok {}
  | .ok true =>
    match d.readText p with
    | .error (.file (.name fault)) => .error fault.failure
    | .error _ => .error (unavailable (.unreadable p.render))
    | .ok t => stateOfText p.render t

/-! ### Saving -/

/-- The path of an assignment as it is saved: for a surrogate stand three replacement
characters, one for each byte that it would have. -/
def savedPath (path : Text) : Text :=
  path.flatMap fun c => if c.isSurrogate then List.replicate 3 (.char '\ufffd') else [c]

/-- The state as it is saved. Of assignments whose paths are saved as the same one the
last counts, at the place of the first. -/
def saved (s : State) : State :=
  { s with assignments := .ofList (s.assignments.entries.map fun e => (savedPath e.1, e.2)) }

/-- The text that a state is saved as. -/
def textOfState (s : State) : Text :=
  Json.print .indented (saved s).toJson ++ [.char '\n']

/-- The failure that a fault on the way to the file makes. -/
def writeFailure (p : FilePath) : Disk.Fault → Failure
  | .name fault => fault.failure
  | .unencodable fault => .unencodable fault
  | _ => unavailable (.unwritable p.render)

/-- The event that a state was saved. -/
def savedEvent (now : Text) (p : FilePath) : Log.Event :=
  .make now .info "namespace_state_saved".text [("state_file".text, .file p)]

/-- Saves a state in a file, with the directories above it made as needed. -/
def save (now : Text) (s : State) (p : FilePath) (d : Disk) : Reply Disk Unit :=
  match d.makeDirs p.parent with
  | (.error e, d) => { outcome := .error (writeFailure p e), world := d }
  | (.ok (), d) =>
    match d.writeText p (textOfState s) with
    | (.error e, d) => { outcome := .error (writeFailure p e), world := d }
    | (.ok (), d) => { outcome := .ok (), world := d, events := [savedEvent now p] }

/-! ### Serving -/

/-- A question to the state in the file. -/
def ask {α : Type} (p : FilePath) (question : State → Except Failure α) (d : Disk) :
    Reply Disk α :=
  { outcome := load d p >>= question, world := d }

/-- A change of the state in the file. -/
def change (now : Text) (p : FilePath) (step : State → Except Failure State) (d : Disk) :
    Reply Disk Unit :=
  match load d p >>= step with
  | .error f => { outcome := .error f, world := d }
  | .ok s => save now s p d

/-- The service of the namespace kept in a file. -/
def backend (now : Text) (p : FilePath) : Backend Disk where
  list := ask p fun s => .ok s.policies
  get path := ask p fun s => s.effectivePolicy path
  set path name := change now p fun s => s.setPolicy path name
  unset path := change now p fun s => s.unsetPolicy path

end CodingPolicy.Store
