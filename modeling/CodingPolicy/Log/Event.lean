/-
CodingPolicy/Log/Event.lean

Events: a level and named values. The time and the name of the event come
first, then the fields in the order in which they are given; a field takes the
place of a value that has its name already. On the log an event is one line of
JSON.
-/
import CodingPolicy.Json.Printer
import CodingPolicy.Log.Value

namespace CodingPolicy.Log

/-! ### Levels -/

/-- How much an event matters. -/
structure Level where
  /-- The number that levels are compared by. -/
  rank : Int
  /-- The number as it is written. -/
  written : Text
  deriving DecidableEq, Repr

namespace Level

/-- The level of a number. -/
def ofInt (rank : Int) : Level :=
  ⟨rank, Number.intText rank⟩

/-- The level that a value stands for: that of a whole number, or of a truth value,
which counts as one or zero. -/
def ofValue? : Value → Option Level
  | .int i => some (ofInt i)
  | .bool b => some ⟨if b then 1 else 0, (Value.bool b).display⟩
  | _ => none

/-- The level of events in the normal course of things. -/
def info : Level := ofInt 20

/-- The level of events that call for attention. -/
def warning : Level := ofInt 30

/-- The name of a level; most have only their number. -/
def name (l : Level) : Text :=
  if l.rank = 0 then "NOTSET".text
  else if l.rank = 10 then "DEBUG".text
  else if l.rank = info.rank then "INFO".text
  else if l.rank = warning.rank then "WARNING".text
  else if l.rank = 40 then "ERROR".text
  else if l.rank = 50 then "CRITICAL".text
  else said "Level " l.written

/-- Events of this level are logged where the least level that is logged is the given one,
or any level at all. -/
def isEnabled (l : Level) (least : Level := ofInt 1) : Bool :=
  least.rank ≤ l.rank

end Level

/-! ### Events -/

/-- An event. -/
structure Event where
  /-- How much the event matters. -/
  level : Level
  /-- The named values, the time and the name of the event among them. -/
  members : List (Text × Json)

namespace Event

/-- The event of a name at a time, with its fields. -/
def make (time : Text) (level : Level) (name : Text) (fields : List (Text × Value)) : Event where
  level := level
  members :=
    Entries.merge [("ts".text, .string time), ("event".text, .string name)]
      (fields.map fun f => (f.1, f.2.toJson))

/-- The key of an event's name. -/
def nameKey : Text := "event".text

/-- The key of an event's level. -/
def levelKey : Text := "level".text

/-- The event of a name at a time, with fields of any names. The level is given
apart from the fields or among them, but not twice; without one the event is in
the normal course of things. The name is never given among the fields. -/
def make? (time : Text) (level : Option Value) (name : Text) (fields : OrderedMap Text Value) :
    Except Failure Event :=
  let ownLevel := fields.get? levelKey
  if level.isSome && ownLevel.isSome then .error (.misuse .levelTwice)
  else if (fields.get? nameKey).isSome then .error (.misuse .nameTwice)
  else
    match (level <|> ownLevel).elim (some .info) Level.ofValue? with
    | some l => .ok (make time l name (fields.erase levelKey).entries)
    | none => .error (.misuse .levelNotWhole)

/-- The line of an event. -/
def line (e : Event) : Text :=
  Json.print .compact (.object e.members)

end Event

end CodingPolicy.Log
