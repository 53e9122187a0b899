/-
CodingPolicy/Config/Load.lean

Settling the configuration. A configuration file is the one that is named, or
else the one that the surroundings name; single settings from the command line
stand above those of the file, and those above the defaults.
-/
import CodingPolicy.Config.Generic
import CodingPolicy.Disk.Text

namespace CodingPolicy.Config

/-- The settings in a configuration file. -/
def readFile (d : Disk) (p : FilePath) : Except Failure (List (Text × Json)) :=
  match d.readText p with
  | .error (.file (.name fault)) => .error fault.failure
  | .error (.file _) => .error (.config (.unreadable p.render))
  | .error (.bytes fault) => .error (.undecodable fault)
  | .ok t =>
    match Json.read t with
    | .error (.tooManyDigits n) => .error (.value (.tooManyDigits n))
    | .error .malformed => .error (.config (.noJson p.render))
    | .ok (.object members) => .ok members
    | .ok _ => .error (.config (.noObject p.render))

/-- The configuration file: the one that is named, or that of the surroundings
unless its name is empty. -/
def chooseFile (around : Surroundings) (named : Option FilePath) :
    Except Failure (Option FilePath) :=
  match named, around.configFile with
  | some p, _ => .ok (some p)
  | none, some (c :: r) => (FilePath.expandHome around.homes (.ofText (c :: r))).map some
  | none, _ => .ok none

/-- Of the violations of the settings the first is reported. -/
def reportFirst (result : Except Failure Config) : Except Failure Config :=
  match result with
  | .error (.invalidModel (v :: _)) => .error (.config (.invalid v))
  | r => r

/-- The configuration. -/
def load (around : Surroundings) (d : Disk) (named : Option FilePath)
    (overrides : OrderedMap Text Text) : Except Failure Config := do
  let file ← chooseFile around named
  let members ← match file with
    | some p => readFile d p
    | none => pure []
  let settings := overrides.entries.map fun e => (e.1, Json.string e.2)
  reportFirst (ofMembers around.homes (Entries.merge members settings))

end CodingPolicy.Config
