/-
CodingPolicy/Log/Time.lean

Points in time as text: the date and the time of day in universal time, to the
microsecond, with the offset from universal time behind them.

The date comes from the number of days by cycles of 400 years that start on the
first of March, so that a leap day is the last day of its year.
-/
import CodingPolicy.Number.Digits

namespace CodingPolicy.Log.Time

/-- A date of the calendar. -/
structure Date where
  /-- The year. -/
  year : Nat
  /-- The month, counted from one. -/
  month : Nat
  /-- The day of the month, counted from one. -/
  day : Nat
  deriving DecidableEq, Repr

/-- The days of 400 years. -/
def cycleDays : Nat := 146097

/-- The days from the first of March of the year zero to the start of 1970. -/
def epochDay : Nat := 719468

/-- The date that is so many days after the start of 1970. -/
def Date.ofDays (days : Nat) : Date :=
  let n := days + epochDay
  let inCycle := n % cycleDays
  let yearOfCycle := (inCycle - inCycle / 1460 + inCycle / 36524 - inCycle / 146096) / 365
  let dayOfYear := inCycle - (365 * yearOfCycle + yearOfCycle / 4 - yearOfCycle / 100)
  -- months are counted from March, in groups of five that have 153 days
  let march := (5 * dayOfYear + 2) / 153
  let month := if march < 10 then march + 3 else march - 9
  { year := n / cycleDays * 400 + yearOfCycle + (if month ≤ 2 then 1 else 0)
    month
    day := dayOfYear - (153 * march + 2) / 5 + 1 }

/-- The number with zeros in front, up to the width. -/
def padded (width n : Nat) : Text :=
  let digits := Number.natText n
  List.replicate (width - digits.length) (.char '0') ++ digits

/-- The date as text. -/
def Date.text (d : Date) : Text :=
  padded 4 d.year ++ .char '-' :: padded 2 d.month ++ .char '-' :: padded 2 d.day

/-- The time that is so many microseconds after the start of 1970. Whole seconds
are written without a fraction. -/
def text (microseconds : Nat) : Text :=
  let seconds := microseconds / 1000000
  let fraction := microseconds % 1000000
  let inDay := seconds % 86400
  (Date.ofDays (seconds / 86400)).text ++ .char 'T' :: padded 2 (inDay / 3600)
    ++ .char ':' :: padded 2 (inDay / 60 % 60) ++ .char ':' :: padded 2 (inDay % 60)
    ++ (if fraction = 0 then [] else .char '.' :: padded 6 fraction) ++ "+00:00".text

example : text 1704164645678901 = "2024-01-02T03:04:05.678901+00:00".text := by decide

end CodingPolicy.Log.Time
