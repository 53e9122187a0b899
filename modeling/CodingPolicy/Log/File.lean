/-
CodingPolicy/Log/File.lean

The log file. It is opened for appending when the program starts, with the
directories above it made as needed, and takes a block of text for every event
that matters enough. The first block of each opening has no empty line before
it. A block with a surrogate cannot be written and is left out, but it counts as
the first one.
-/
import CodingPolicy.Disk.Text
import CodingPolicy.Log.Block

namespace CodingPolicy.Log

/-- The name of the program's own log. -/
def programLog : Text := "ecadmin".text

/-- An open log file. -/
structure File where
  /-- Where the file is. -/
  location : Location
  /-- No block has been written since it was opened. -/
  isFresh : Bool := true
  deriving DecidableEq, Repr

namespace File

/-- The failure that a fault on the way to the file makes. -/
def failureOf (p : FilePath) : Disk.Fault → Failure
  | .name fault => fault.failure
  | _ => .config (.logFile p.render)

/-- Opens a log file, and makes it if it is missing. -/
def openFile (d : Disk) (p : FilePath) : Except Failure File × Disk :=
  match d.makeDirs p.parent with
  | (.error e, d) => (.error (failureOf p e), d)
  | (.ok (), d) =>
    match d.openAt p with
    | .error e => (.error (failureOf p e), d)
    | .ok d' => (.ok { location := d.absolute p }, d')

/-- The text that is written for a block behind the lead: none where a surrogate stands
in the block. -/
def entry (lead block : Text) : Text :=
  let text := lead ++ block ++ [.char '\n']
  if (Utf8.writeFault? text).isSome then [] else text

/-- Writes the block of an event to the end of the file. -/
def append (now : Text) (f : File) (e : Event) (d : Disk) : File × Disk :=
  if !e.level.isEnabled .info then (f, d)
  else
    match Block.text now { message := e.line, logger := programLog, level := e.level } with
    | .error _ => (f, d)
    | .ok block =>
      let lead := if f.isFresh then [] else [.char '\n']
      let text := entry lead block
      ({ f with isFresh := false }, d.appendAt f.location (Utf8.encode text))

end File

end CodingPolicy.Log
