/-
CodingPolicy/Main.lean

The command line. The files that a call may look at are read into a disk, the
call is carried out on it, and what it changed is written back.
-/
import Std.Time.DateTime.Timestamp
import CodingPolicy.Invocation
import CodingPolicy.Log.Time

namespace CodingPolicy.CommandLine

/-- The name of a location for the operating system. -/
def nameOf (l : Location) : String :=
  String.ofList (Text.chars (.char '/' :: Text.joinWith [.char '/'] l))

/-- What the operating system has at a location. -/
def readEntry (l : Location) : IO (Option Disk.Entry) := do
  try
    let bytes ← IO.FS.readBinFile (nameOf l)
    return some (.file bytes.toList)
  catch
    | .noFileOrDirectory _ _ _ => return none
    | .noSuchThing _ _ _ => return none
    | _ => return some .directory

/-- The disk with what is at a location and at every location above it. -/
def readLocation (d : Disk) (l : Location) : IO Disk := do
  let mut d := d
  for n in List.range (l.length + 1) do
    let here := l.take n
    if (d.find? here).isNone && d.find? here.dropLast == some .directory then
      if let some e ← readEntry here then
        d := d.put here e
  return d

/-- The disk with everything on the way of a file name. -/
def readFileName (d : Disk) (p : FilePath) : IO Disk := do
  let mut d ← readLocation d (d.start p)
  let mut l := d.start p
  for s in p.onDisk do
    l := Disk.stepInto l s
    d ← readLocation d l
  readLocation d (d.absolute p)

/-- The disk with everything on the way of file names. -/
def readFileNames (d : Disk) (names : List FilePath) : IO Disk :=
  names.foldlM readFileName d

/-- Writes what is new on a disk. -/
def writeBack (before after : Disk) : IO Unit := do
  for (l, e) in after.entries do
    if before.find? l ≠ some e then
      match e with
      | .directory => IO.FS.createDir (nameOf l)
      | .file bytes => IO.FS.writeBinFile (nameOf l) (ByteArray.mk bytes.toArray)

/-- The working directory. -/
def currentLocation : IO Location := do
  let name := toString (← IO.currentDir)
  return (Text.splitOn '/' name.text).filter FilePath.isSegment

/-- The time. -/
def currentTime : IO Text := do
  let stamp ← Std.Time.Timestamp.now
  return Log.Time.text (stamp.toNanosecondsSinceUnixEpoch.val / 1000).toNat

/-- A line of the user database: the name of a user and the home directory. -/
def userOfLine (line : Text) : Option (Text × Text) :=
  match Text.splitOn ':' line with
  | name :: _ :: _ :: _ :: _ :: directory :: _ => some (name, directory)
  | _ => none

/-- The home directories of the users in the user database. -/
def users : IO (List (Text × Text)) := do
  let lines := Text.splitOn '\n' (← IO.FS.readFile "/etc/passwd").text
  return lines.filterMap userOfLine

/-- What the program takes from its surroundings. -/
def surroundings : IO Surroundings := do
  let home ← IO.getEnv "HOME"
  let file ← IO.getEnv "ECADMIN_CONF"
  return {
    home := (home.getD "/").text
    users := ← users
    configFile := file.map String.text }

/-- Carries out a call and returns the status for the operating system. -/
def run (args : List Text) : IO UInt32 := do
  let around ← surroundings
  let empty : Disk := { workingDir := ← currentLocation }
  let disk ← readFileNames empty (Invocation.configFiles around args)
  let disk ← readFileNames disk (Invocation.keptFiles around disk args)
  let result := Invocation.run (← currentTime) around disk args
  IO.print (String.ofList result.out.chars)
  IO.eprint (String.ofList result.err.chars)
  writeBack disk result.disk
  match result.outcome with
  | .ok status => return (status % 256).toNat.toUInt32
  | .error f =>
    IO.eprintln (String.ofList f.report.chars)
    return 1

end CodingPolicy.CommandLine

/-- The program. -/
def main (args : List String) : IO UInt32 :=
  CodingPolicy.CommandLine.run (args.map String.text)
