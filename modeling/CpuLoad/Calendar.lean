import CpuLoad.Reading

/-!
The date of the Gregorian calendar, in universal time, on which a second since the beginning of 1970 falls. Days are
counted in eras of 400 years that begin on the first of March, so that a leap day is the last day of its year.
-/
namespace CpuLoad.Calendar
open CpuLoad.DecimalDigit

-- Powers are the core library's, whatever else is loaded. For that a literal exponent has its type.
attribute [local instance (high)] instPowNat

/-- A date of the Gregorian calendar. -/
structure Date where
  year : Int
  month : Nat
  day : Nat
  deriving DecidableEq, Inhabited

def daysInEra : Int := 146097

/-- Days from the first of March of the year zero to the beginning of 1970. -/
def daysTo1970 : Int := 719468

def ofDay (day : Int) : Date :=
  let shifted := day + daysTo1970
  let era := shifted / daysInEra
  let dayOfEra := (shifted % daysInEra).toNat
  let yearOfEra := (dayOfEra - dayOfEra / 1460 + dayOfEra / 36524 - dayOfEra / 146096) / 365
  let dayOfYear := dayOfEra - (365 * yearOfEra + yearOfEra / 4 - yearOfEra / 100)
  let monthFromMarch := (5 * dayOfYear + 2) / 153
  let month := if monthFromMarch < 10 then monthFromMarch + 3 else monthFromMarch - 9
  { year := Int.ofNat yearOfEra + era * 400 + (if month ≤ 2 then 1 else 0)
    month := month
    day := dayOfYear - (153 * monthFromMarch + 2) / 5 + 1 }

/-- The day in which a second falls, both counted from the beginning of 1970. -/
def dayOfSecond (second : Int) : Int := second / 86400

def ofSecond (second : Int) : Date := ofDay (dayOfSecond second)

/-- The integer nearest to a rational number, a tie going to the even one. -/
def roundRational (q : Rat) : Int :=
  let size := Int.ofNat (Binary64.roundQuotient q.num.natAbs q.den)
  if q.num < 0 then -size else size

/-- The second of a wall-clock reading. A double counts whole microseconds: its fraction is multiplied first and rounded
    then. A reading beyond 64 bits of seconds is too large. -/
def secondOf (reading : Value) : Except Fault Int := do
  let second ← match reading with
    | .float x =>
      let whole ← reading.toInt
      let fraction := x - (Binary64.ofInt? whole).getD 0.0
      let microseconds := roundRational ((Binary64.value? (fraction * 1000000.0)).getD 0)
      pure (whole + microseconds / 1000000)
    | .bool _ | .int _ => reading.toInt
    | _ => throw .wrongKind
  if second < -2 ^ (63 : Nat) || 2 ^ (63 : Nat) ≤ second then throw .tooLarge else return second

/-- The least and the greatest year of a date. -/
def years : Int × Int := (1, 9999)

def isCountedYear (year : Int) : Bool := -2 ^ (31 : Nat) ≤ year - 1900 && year - 1900 < 2 ^ (31 : Nat)

/-- The date of a wall-clock reading. A year that the system's calendar does not count has no date; one outside the
    years from 1 to 9999 is refused. -/
def dateOf (reading : Value) : Except Fault Date := do
  let date := ofSecond (← secondOf reading)
  if !isCountedYear date.year then throw .noDate
  if date.year < years.1 || years.2 < date.year then throw .notNumber
  return date

/-- A date as year, month and day between hyphens. The year is written as it is. -/
def Date.text (d : Date) : String :=
  padded 1 d.year.toNat ++ "-" ++ padded 2 d.month ++ "-" ++ padded 2 d.day

end CpuLoad.Calendar
