/-
CodingPolicy/Config/Basic.lean

The configuration: the file system that is served, the file that keeps the
namespace's state, the working directory of relative paths, and the file for
the log. Settings come as a JSON object; a setting that is absent has its
default, and a key that is no setting is refused.

The settings are checked in a fixed order, and then the keys that mean nothing
are listed in the order of the object. A key with a surrogate ends the check, and
nothing else is told.
-/
import CodingPolicy.Disk.FilePath
import CodingPolicy.Namespace.Path
import CodingPolicy.Namespace.Schema

namespace CodingPolicy

/-- What the program takes from its surroundings. -/
structure Surroundings where
  /-- The home directory. -/
  home : Text
  /-- The home directories of users, by name. -/
  users : List (Text × Text) := []
  /-- The configuration file that the surroundings name. -/
  configFile : Option Text := none
  deriving DecidableEq, Repr

/-- The home directories that a tilde stands for. -/
def Surroundings.homes (around : Surroundings) : Homes where
  own := around.home
  users := around.users

/-- The configuration. -/
structure Config where
  /-- The URI of the file system that is served. -/
  defaultFs : Text
  /-- The file that keeps the state of the namespace. -/
  stateFile : FilePath
  /-- The directory that relative paths are seen from. -/
  workingDir : Text
  /-- The file for the log; there may be none. -/
  logFile : Option FilePath
  deriving DecidableEq, Repr

namespace Config

/-! ### Defaults -/

/-- The file system that is served unless another is set. -/
def defaultFileSystem : Text := "ecfs://localhost".text

/-- The state file unless another is set. -/
def defaultStateFile : Text := "~/.ecadmin/namespace.json".text

/-- The working directory unless another is set. -/
def defaultWorkingDir : Text := [.char '/']

/-- The keys of the settings. -/
def keys : List Text :=
  ["default_fs".text, "state_file".text, "working_dir".text, "log_file".text]

/-! ### Single settings -/

/-- A file system is given as a URI: something, the scheme mark, and anything. -/
def checkFs (t : Text) : Except (List Violation) Text :=
  match Text.cutAt NamespacePath.schemeMark t with
  | some (_ :: _, _) => .ok t
  | _ => refuse (.refused (said "default_fs must be a URI like " defaultFileSystem))

/-- A working directory is absolute. -/
def checkWorkingDir (t : Text) : Except (List Violation) Text :=
  if t.head? = some (.char '/') then .ok t
  else refuse (.refused "working_dir must be an absolute namespace path".text)

/-- A text setting at its key, checked; the default where the key is absent. -/
def readTextSetting (key : String) (default : Text)
    (check : Text → Except (List Violation) Text) (members : List (Text × Json)) :
    Except (List Violation) Text :=
  let v := (Entries.get? key.text members).getD (.string default)
  within (.key key.text) (readTextValue v >>= check)

/-- A file name with the home directory put in. That the home directory cannot
be told stops the whole reading; a name that no file can have is a violation. -/
def expand (homes : Homes) (p : FilePath) : Except Failure (Except (List Violation) FilePath) :=
  match p.expandHome homes with
  | .ok q => .ok (.ok q)
  | .error .noHome => .error .noHome
  | .error f => .ok (refuse (.refused f.message))

/-- The name of a file. -/
def readFileName (homes : Homes) : Json → Except Failure (Except (List Violation) FilePath)
  | .string t => expand homes (.ofText t)
  | _ => .ok (refuse .noPath)

/-- The state file. -/
def readStateFile (homes : Homes) (members : List (Text × Json)) :
    Except Failure (Except (List Violation) FilePath) := do
  let key := "state_file".text
  let v := (Entries.get? key members).getD (.string defaultStateFile)
  return within (.key key) (← readFileName homes v)

/-- The log file; null stands for none. -/
def readLogFile (homes : Homes) (members : List (Text × Json)) :
    Except Failure (Except (List Violation) (Option FilePath)) := do
  let key := "log_file".text
  match Entries.get? key members with
  | none | some .null => return .ok none
  | some v => return within (.key key) ((← readFileName homes v).map some)

/-- The keys that are no settings. -/
def unknownKeys (members : List (Text × Json)) : List Violation :=
  (members.filter fun e => e.1 ∉ keys).map fun e => ⟨[.key e.1], .unknownKey⟩

/-- What is told of the violations: all of them, unless a key has no bytes. -/
def toldOf (members : List (Text × Json)) (found : List Violation) : List Violation :=
  if members.all fun e => (Utf8.writeFault? e.1).isNone then found else [⟨[], .noBytes⟩]

/-! ### All settings -/

/-- The configuration of an object of settings. -/
def ofMembers (homes : Homes) (members : List (Text × Json)) : Except Failure Config := do
  let fs := readTextSetting "default_fs" defaultFileSystem checkFs members
  let state ← readStateFile homes members
  let dir := readTextSetting "working_dir" defaultWorkingDir checkWorkingDir members
  let log ← readLogFile homes members
  match fs, state, dir, log, unknownKeys members with
  | .ok defaultFs, .ok stateFile, .ok workingDir, .ok logFile, [] =>
    return { defaultFs, stateFile, workingDir, logFile }
  | _, _, _, _, unknown =>
    throw (.invalidModel (toldOf members
      (violations fs ++ violations state ++ violations dir ++ violations log ++ unknown)))

/-- The configuration of a JSON value, which must be an object. -/
def ofJson (homes : Homes) : Json → Except Failure Config
  | .object members => ofMembers homes members
  | _ => .error (.invalidModel [⟨[], .noObject "AdminConfig".text⟩])

end Config

end CodingPolicy
