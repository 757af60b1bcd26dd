import CpuLoad.Markup.ScalarText
import CpuLoad.Markup.Tag
import CpuLoad.Numeral
import CpuLoad.Value

/-!
The value of a scalar by its tag and its text. A text of a kind that it does not look like is read as that kind all the
same, as far as it goes.
-/
namespace CpuLoad.Markup.Scalar
open CpuLoad.Markup

-- Powers are the core library's, whatever else is loaded.
attribute [local instance (high)] instPowNat

/-- A number that was read, or the fault of a text that denotes none. -/
def orNotNumber {α : Type} : Option α → Except Fault α
  | some x => .ok x
  | none => .error .notNumber

/-! ### Integers -/

def digitIn? (base : Nat) (c : Char) : Option Nat := (ScalarText.hexValue? c).filter (· < base)

def baseLetter (base : Nat) : Char := if base = 2 then 'b' else if base = 8 then 'o' else 'x'

def announced (base : Nat) : List Char → List Char
  | '0' :: letter :: rest => if letter.toLower = baseLetter base then rest else '0' :: letter :: rest
  | cs => cs

/-- The integer that a text denotes in base two, eight or sixteen; the base may be announced. -/
def intIn? (base : Nat) (cs : List Char) : Option Int := do
  let (negative, size) := Numeral.splitSign (Numeral.core (String.ofList cs))
  let digits := announced base size
  if digits = [] then none
  else
    let n ← digits.foldlM (fun n c => (digitIn? base c).map (base * n + ·)) 0
    some (if negative then -Int.ofNat n else Int.ofNat n)

/-- The value of a number in sixtieths. -/
def sixtieths (parts : List Int) : Int := parts.foldl (fun n d => 60 * n + d) 0

/-- The integer of a scalar. Underscores mean nothing. -/
def intOf (text : String) : Except Fault Int := do
  let cs := text.toList.filter (· != '_')
  if cs = [] then throw .missingEntry
  let size := Tag.unsigned cs
  let n ← match size with
    | [] => throw .missingEntry
    | ['0'] => pure 0
    | '0' :: 'b' :: digits => orNotNumber (intIn? 2 digits)
    | '0' :: 'x' :: digits => orNotNumber (intIn? 16 digits)
    | '0' :: _ => orNotNumber (intIn? 8 size)
    | _ =>
      if size.contains ':' then
        return sixtieths (← (Tag.colonParts size).mapM fun part => orNotNumber (Numeral.int? (String.ofList part))) *
          (if cs.head? = some '-' then -1 else 1)
      else orNotNumber (Numeral.int? (String.ofList size))
  return if cs.head? = some '-' then -n else n

/-! ### Doubles -/

/-- A double of sixtieths, added up from the last part on. The worth of a place is a double as well, so there may be too
    many places. -/
def sixtiethsFloat (parts : List Float) : Except Fault Float :=
  (parts.reverse.zipIdx).foldlM (fun sum (part, place) =>
    match Binary64.ofInt? ((60 ^ place : Nat) : Int) with
    | some worth => .ok (sum + part * worth)
    | none => .error .tooLarge) 0.0

/-- The text of a double in small letters and without underscores, which mean nothing. -/
def floatChars (text : String) : List Char := (text.toList.filter (· != '_')).map Char.toLower

def nanName : List Char := ".nan".toList

def namesNan (text : String) : Bool := Tag.unsigned (floatChars text) = nanName

def floatOf (text : String) : Except Fault Float := do
  let cs := floatChars text
  if cs = [] then throw .missingEntry
  let size := Tag.unsigned cs
  let sign := if cs.head? = some '-' then -1.0 else 1.0
  if size = ".inf".toList then return sign * Binary64.infinity
  if size = nanName then return Binary64.nan
  if size.contains ':' then
    let parts ← (Tag.colonParts size).mapM fun part => orNotNumber (Numeral.float? (String.ofList part))
    return sign * (← sixtiethsFloat parts)
  return sign * (← orNotNumber (Numeral.float? (String.ofList size)))

/-! ### Bytes -/

/-- The value of a digit of base 64. -/
def digit64? (c : Char) : Option Nat :=
  if 'A' ≤ c && c ≤ 'Z' then some (c.toNat - 'A'.toNat)
  else if 'a' ≤ c && c ≤ 'z' then some (c.toNat - 'a'.toNat + 26)
  else if c.isDigit then some (c.toNat - '0'.toNat + 52)
  else if c = '+' then some 62
  else if c = '/' then some 63
  else none

/-- The bytes of some digits of base 64, given the place of the next one in its group of four, the bits that are left of
    the one before it, and the number of fillers just passed. What is no digit is passed over, and a group that is
    filled up is the last. -/
def bytesFrom (place left fillers : Nat) : List Char → Option (List UInt8)
  | [] => if place = 0 then some [] else none
  | c :: rest =>
    if c = '=' then
      if place < 2 then bytesFrom place left fillers rest
      else if 4 ≤ place + fillers + 1 then some []
      else bytesFrom place left (fillers + 1) rest
    else match digit64? c, place with
      | none, _ => bytesFrom place left fillers rest
      | some d, 0 => bytesFrom 1 d 0 rest
      | some d, 1 => (bytesFrom 2 (d % 16) 0 rest).map (UInt8.ofNat (left * 4 + d / 16) :: ·)
      | some d, 2 => (bytesFrom 3 (d % 4) 0 rest).map (UInt8.ofNat (left * 16 + d / 4) :: ·)
      | some d, _ => (bytesFrom 0 0 0 rest).map (UInt8.ofNat (left * 64 + d) :: ·)

def bytesOf (text : String) : Except Fault (List UInt8) :=
  if text.toList.all fun c => c.toNat < 128 then
    match bytesFrom 0 0 0 text.toList with
    | some bytes => .ok bytes
    | none => .error malformed
  else .error malformed

/-! ### Timestamps -/

def numberOf (digits : List Char) : Nat := DecimalDigit.number (digits.map Numeral.digitValue)

/-- The microseconds of the digits behind a point, of which six count. -/
def microseconds (digits : List Char) : Nat :=
  let six := digits.take 6
  numberOf (six ++ List.replicate (6 - six.length) '0')

/-- The minutes of a distance from universal time. -/
def zoneOf : Option (Char × List Char × List Char) → Int
  | none => 0
  | some (sign, hour, minute) =>
    let minutes := Int.ofNat (numberOf hour * 60 + numberOf minute)
    if sign = '-' then -minutes else minutes

/-- The timestamp of a scalar. A text that looks like none has no parts to take; some that look like one do not
    exist. -/
def timestampOf (text : String) : Except Fault Timestamp := do
  match Tag.timestampParts (Tag.lookedAt text.toList) with
  | none => throw .notText
  | some parts =>
    let time := parts.time.map fun t : Tag.TimeParts =>
      { hour := numberOf t.hour, minute := numberOf t.minute, second := numberOf t.second
        microsecond := microseconds t.fraction, zone := t.zone.map zoneOf : TimeOfDay }
    let stamp : Timestamp :=
      { year := numberOf parts.year, month := numberOf parts.month, day := numberOf parts.day, time }
    if stamp.isReal then return stamp else throw .notNumber

/-! ### All kinds -/

def valueOf (tag : Tag) (text : String) : Except Fault Value :=
  match tag with
  | .null => .ok .null
  | .bool =>
    match Tag.truths.lookup (String.ofList (text.toList.map Char.toLower)) with
    | some b => .ok (.bool b)
    | none => .error .unknownWord
  | .int => (intOf text).map .int
  | .float => (floatOf text).map .float
  | .text => .ok (.text text)
  | .bytes => (bytesOf text).map .bytes
  | .timestamp => (timestampOf text).map .time
  | _ => .error malformed

end CpuLoad.Markup.Scalar
