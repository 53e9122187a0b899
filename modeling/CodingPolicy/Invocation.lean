/-
CodingPolicy/Invocation.lean

A call of the whole program, on a disk: the configuration is settled, the log
file is opened, and the command is carried out on the namespace kept in the
state file. Anything wrong with the configuration is answered with the usage of
the generic options, and no command is run.
-/
import CodingPolicy.Config.Load
import CodingPolicy.Dispatch
import CodingPolicy.Log.File
import CodingPolicy.Store
import CodingPolicy.Text.Chars

namespace CodingPolicy

/-- The disk together with the log file that is open on it. -/
structure Machine where
  /-- The disk. -/
  disk : Disk
  /-- The open log file. -/
  log : Option Log.File := none

namespace Machine

/-- Writes an event to the open log file. -/
def record (now : Text) (e : Log.Event) (m : Machine) : Machine :=
  match m.log with
  | none => m
  | some file =>
    let (file, disk) := file.append now e m.disk
    { disk, log := some file }

/-- A call that works on the disk, as one that works on the machine. -/
def onDisk {α : Type} (method : Disk → Reply Disk α) (m : Machine) : Reply Machine α :=
  let reply := method m.disk
  { outcome := reply.outcome, world := { m with disk := reply.world }, events := reply.events }

/-- A service that works on the disk, as one that works on the machine. -/
def lift (b : Backend Disk) : Backend Machine where
  list := onDisk b.list
  get p := onDisk (b.get p)
  set p name := onDisk (b.set p name)
  unset p := onDisk (b.unset p)

end Machine

namespace Invocation

/-- What commands run against under a configuration. -/
def setting (now : Text) (config : Config) : Setting Machine where
  backend := Machine.lift (Store.backend now config.stateFile)
  admits p := p.checkFileSystem config.defaultFs
  record := Machine.record now
  now := now

/-- Opens the log file of a configuration, if it has one. -/
def openLog (config : Config) (d : Disk) : Except Failure (Option Log.File) × Disk :=
  match config.logFile with
  | none => (.ok none, d)
  | some p =>
    let (result, d) := Log.File.openFile d p
    (result.map some, d)

/-! ### Before the command -/

/-- The configuration of a call and the arguments that are left. -/
def settle (around : Surroundings) (d : Disk) (args : List Text) :
    Except Failure (Config × List Text) := do
  let (options, rest) ← Config.GenericOptions.parse around.homes args
  let config ← Config.load around d options.configFile options.overrides
  return (config, rest)

/-- What stands before a command: the configuration, the arguments that are
left, and the open log file, with the disk as it is then. -/
def prepare (around : Surroundings) (d : Disk) (args : List Text) :
    Except Failure (Config × List Text × Option Log.File) × Disk :=
  match settle around d args with
  | .error f => (.error f, d)
  | .ok (config, rest) =>
    let (result, d) := openLog config d
    (result.map fun log => (config, rest, log), d)

/-! ### The call -/

/-- What is said about a configuration that is wrong. -/
def configAnswer (cause : ConfigFailure) : Text :=
  said "ERROR: " (cause.message ++ .char '\n' :: Config.genericUsage ++ [.char '\n'])

/-- The result of a call, the texts on the two streams among it. -/
structure Result where
  /-- The status, or a failure that nobody answered. -/
  outcome : Except Failure Int
  /-- The text on the output stream. -/
  out : Text := []
  /-- The text on the error stream. -/
  err : Text := []
  /-- The disk afterwards. -/
  disk : Disk

/-- Calls the program. -/
def run (now : Text) (around : Surroundings) (d : Disk) (args : List Text) : Result :=
  match prepare around d args with
  | (.error (.config cause), d) =>
    { outcome := .ok Status.usage, err := configAnswer cause, disk := d }
  | (.error f, d) => { outcome := .error f, disk := d }
  | (.ok (config, rest, log), d) =>
    let (outcome, s) := (Dispatch.run (setting now config) config rest).run.run
      { world := { disk := d, log } }
    { outcome, out := s.out, err := s.err, disk := s.world.disk }

/-! ### Files of a call -/

/-- The configuration file that a call looks at. -/
def configFiles (around : Surroundings) (args : List Text) : List FilePath :=
  match Config.GenericOptions.parse around.homes args with
  | .ok (options, _) =>
    match Config.chooseFile around options.configFile with
    | .ok (some p) => [p]
    | _ => []
  | .error _ => []

/-- The files that a call keeps its state and its log in. -/
def keptFiles (around : Surroundings) (d : Disk) (args : List Text) : List FilePath :=
  match settle around d args with
  | .ok (config, _) => config.stateFile :: config.logFile.toList
  | .error _ => []

end Invocation

end CodingPolicy
