/-
CodingPolicy/Log/Block.lean

Log entries as blocks of text: a heading with the name of the event, and a line
for every value, first those with a fixed place and then the others in
alphabetical order. A message that is a JSON object gives its members, any other
message is a value itself; null values are left out. Within a value a newline is
written as a backslash and the letter n, so that no value reaches into the next
line.

Main result: a shown value holds no newline (`not_mem_fieldText`).
-/
import CodingPolicy.Json.Literal
import CodingPolicy.Log.Event

namespace CodingPolicy.Log

/-- An entry of the log. -/
structure Record where
  /-- What is logged. -/
  message : Text
  /-- Who logs it. -/
  logger : Text
  /-- How much it matters. -/
  level : Level
  /-- The failure that led to it. -/
  failure : Option Failure := none

namespace Block

/-- The names with a fixed place, in their order. -/
def fixedNames : List Text :=
  ["ts_utc".text, "level".text, "logger".text, "ts".text, "command".text,
    "operation".text, "path".text, "policy".text, "status".text, "error_type".text,
    "error".text]

/-- A newline as a backslash and the letter n. -/
def escapeNewline (c : CodePoint) : Text :=
  if c = '\n' then [.char '\x5c', .char 'n'] else [c]

/-- The text of a value on its line. -/
def fieldText (v : Json) : Text :=
  v.display.flatMap escapeNewline

/-- The members of a message that is a JSON object. -/
def parsed? (message : Text) : Except Failure (Option (List (Text × Json))) :=
  if message.head? = some (.char '{') ∧ message.getLast? = some (.char '}') then
    match Json.read message with
    | .ok (.object members) => .ok (some members)
    | .error (.tooManyDigits n) => .error (.value (.tooManyDigits n))
    | _ => .ok none
  else .ok none

/-- The values of an entry by name. -/
def values (now : Text) (r : Record) : Except Failure (List (Text × Json)) := do
  let base := [("ts_utc".text, Json.string now), ("level".text, .string r.level.name),
    ("logger".text, .string r.logger)]
  match ← parsed? r.message with
  | some members => return Entries.merge base members
  | none =>
    return Entries.merge base [("event".text, .string r.logger),
      ("message".text, .string r.message)]

/-- The value is shown. -/
def isShown : Json → Bool
  | .null => false
  | _ => true

/-- The values that are shown, in the order of their lines. -/
def ordered (vs : List (Text × Json)) : List (Text × Json) :=
  let shown := vs.filter fun e => isShown e.2
  let fixed := fixedNames.filterMap fun k => shown.find? fun e => e.1 = k
  let others := (shown.filter fun e => e.1 ∉ fixedNames).mergeSort fun a b =>
    Text.precedes a.1 b.1
  fixed ++ others

/-- The lines on a failure. -/
def failureLines : Option Failure → List Text
  | some f => ["traceback:".text, f.report]
  | none => []

/-- The block of an entry. -/
def text (now : Text) (r : Record) : Except Failure Text := do
  let vs ← values now r
  let name := (Entries.get? "event".text vs).getD (.string r.logger)
  let fields := ordered (Entries.erase "event".text vs)
  return Text.joinWith [.char '\n']
    ((said "=== " (name.display ++ " ===".text))
      :: fields.map (fun e => e.1 ++ said ": " (fieldText e.2)) ++ failureLines r.failure)

/-- The blocks of entries one after the other, as they are written: an empty
line stands before every block but the first. -/
def texts (now : Text) : Bool → List Record → Except Failure (List Text)
  | _, [] => .ok []
  | isFirst, r :: rs => do
    let block ← text now r
    let rest ← texts now false rs
    return (if isFirst then block else .char '\n' :: block) :: rest

theorem not_mem_fieldText (v : Json) : .char '\n' ∉ fieldText v := by
  intro h
  obtain ⟨c, -, hc⟩ := List.mem_flatMap.1 h
  by_cases e : c = '\n'
  · simp [escapeNewline, e] at hc
  · simp [escapeNewline, e, Ne.symm e] at hc

end Block

end CodingPolicy.Log
