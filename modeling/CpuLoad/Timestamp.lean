import CpuLoad.DecimalDigit

/-!
A date of the calendar, alone or with a time of day, and the time of day with or without its distance from universal
time. Two times with a distance are the same if they name one instant; a time without one differs from them all, and a
date alone from every time.
-/
namespace CpuLoad
open CpuLoad.DecimalDigit

/-- A time of day to the microsecond. -/
structure TimeOfDay where
  hour : Nat
  minute : Nat
  second : Nat
  microsecond : Nat
  /-- The minutes by which the time is ahead of universal time, if known. -/
  zone : Option Int
  deriving DecidableEq, Inhabited

/-- A date, or a time on it. -/
structure Timestamp where
  year : Nat
  month : Nat
  day : Nat
  time : Option TimeOfDay
  deriving DecidableEq, Inhabited

namespace Timestamp

-- The empty sum is the core library's zero, whatever else is loaded.
attribute [local instance (high)] Zero.ofOfNat0

/-! ### What there is -/

def isLeapYear (year : Nat) : Bool := year % 4 = 0 && (year % 100 != 0 || year % 400 = 0)

def daysOfMonth (year month : Nat) : Nat :=
  match month with
  | 2 => if isLeapYear year then 29 else 28
  | 4 | 6 | 9 | 11 => 30
  | _ => 31

def isDate (t : Timestamp) : Bool :=
  1 ≤ t.year && t.year ≤ 9999 && 1 ≤ t.month && t.month ≤ 12 && 1 ≤ t.day && t.day ≤ daysOfMonth t.year t.month

/-- Whether there is such a time of day. Its distance from universal time is less than a day. -/
def isTime (c : TimeOfDay) : Bool :=
  c.hour < 24 && c.minute < 60 && c.second < 60 && ((c.zone.map fun z => decide (z.natAbs < 1440)).getD true)

def isReal (t : Timestamp) : Bool := t.isDate && ((t.time.map isTime).getD true)

/-! ### Sameness -/

/-- The days before a date, counted from the beginning of the year 1. -/
def dayNumber (t : Timestamp) : Nat :=
  let before := t.year - 1
  before * 365 + before / 4 - before / 100 + before / 400 +
    ((List.range (t.month - 1)).map fun m => daysOfMonth t.year (m + 1)).sum + t.day - 1

/-- The microseconds from the beginning of the year 1 in universal time, of a time whose distance from it is known. -/
def instant? (t : Timestamp) : Option Int := do
  let c ← t.time
  let z ← c.zone
  let minutes : Int := (t.dayNumber * 24 + c.hour : Nat) * 60 + c.minute - z
  some ((minutes * 60 + c.second) * 1000000 + c.microsecond)

def same (s t : Timestamp) : Bool :=
  match s.instant?, t.instant? with
  | some p, some q => p == q
  | none, none => s == t
  | _, _ => false

/-! ### Text -/

/-- The plain text of a distance from universal time. -/
def zoneText (minutes : Int) : String :=
  (if minutes < 0 then "-" else "+") ++ padded 2 (minutes.natAbs / 60) ++ ":" ++ padded 2 (minutes.natAbs % 60)

def plain (t : Timestamp) : String :=
  let date := padded 4 t.year ++ "-" ++ padded 2 t.month ++ "-" ++ padded 2 t.day
  match t.time with
  | none => date
  | some c =>
    date ++ " " ++ padded 2 c.hour ++ ":" ++ padded 2 c.minute ++ ":" ++ padded 2 c.second ++
      (if c.microsecond = 0 then "" else "." ++ padded 6 c.microsecond) ++ (c.zone.map zoneText).getD ""

/-- The text of a distance from universal time in a message: whole days, below zero for one behind it, and seconds. -/
def quotedZone (minutes : Int) : String :=
  if minutes = 0 then "datetime.timezone.utc"
  else
    let seconds := (minutes % 1440) * 60
    let parts := (if minutes < 0 then ["days=-1"] else []) ++
      (if seconds = 0 then [] else ["seconds=" ++ intText seconds])
    "datetime.timezone(datetime.timedelta(" ++ ", ".intercalate parts ++ "))"

/-- The text of a timestamp in a message. Seconds are left out if there are none, not even parts of one. -/
def quoted (t : Timestamp) : String :=
  let number (n : Nat) : String := padded 1 n
  let date := [number t.year, number t.month, number t.day]
  match t.time with
  | none => "datetime.date(" ++ ", ".intercalate date ++ ")"
  | some c =>
    let fine := if c.microsecond ≠ 0 then [number c.second, number c.microsecond]
      else if c.second ≠ 0 then [number c.second] else []
    let zone := (c.zone.map fun z => ["tzinfo=" ++ quotedZone z]).getD []
    "datetime.datetime(" ++ ", ".intercalate (date ++ [number c.hour, number c.minute] ++ fine ++ zone) ++ ")"

end Timestamp
end CpuLoad
