import CpuLoad.Blank
import CpuLoad.DecimalDigit
import CpuLoad.Binary64

/-!
Which texts denote an integer (`int?`) and which a double (`float?`). Around the number stand blanks that are dropped;
the number has an optional sign and decimal digits of any script, with single underscores allowed between two digits. A
double may also have a point, an exponent, or be the name of an infinity or of the number that is not a number in either
case. An integer has at most 4300 digits; a double of any length is rounded to the nearest one, beyond the range to an
infinity.
-/
namespace CpuLoad.Numeral
open CpuLoad.Blank CpuLoad.DecimalDigit CpuLoad.Binary64

-- Powers are the core library's, whatever else is loaded.
attribute [local instance (high)] instPowNat

/-! ### Preparing the text -/

/-- A digit of any script as the ASCII digit of its value, and a blank beyond ASCII as a space. -/
def plainChar (c : Char) : Char :=
  if c.toNat < 127 then c
  else if isBlank c then ' '
  else match value? c with
    | some d => ofNat d
    | none => c

/-- The blanks that may stand around a number. -/
def isPadding (c : Char) : Bool := c = ' ' || (9 ≤ c.toNat && c.toNat ≤ 13)

/-- The text of the number itself, without the blanks around it. -/
def core (s : String) : List Char :=
  let cs := (s.toList.map plainChar).dropWhile isPadding
  (cs.reverse.dropWhile isPadding).reverse

/-- The text without its underscores, each of which stands between two digits. -/
def dropUnderscores : List Char → Option (List Char)
  | [] => some []
  | '_' :: _ => none
  | c :: '_' :: d :: rest =>
    if c.isDigit && d.isDigit then (dropUnderscores (d :: rest)).map (c :: ·) else none
  | c :: rest => (dropUnderscores rest).map (c :: ·)

/-- The sign of a number and what follows it. -/
def splitSign : List Char → Bool × List Char
  | '-' :: rest => (true, rest)
  | '+' :: rest => (false, rest)
  | cs => (false, cs)

def digitValue (c : Char) : Nat := c.toNat - '0'.toNat

/-- The value of a non-empty run of ASCII digits. -/
def natural? (cs : List Char) : Option Nat :=
  if cs ≠ [] && cs.all Char.isDigit then some (number (cs.map digitValue)) else none

/-! ### Integers -/

/-- The integer that a text denotes. -/
def int? (s : String) : Option Int := do
  let cs ← dropUnderscores (core s)
  let (negative, digits) := splitSign cs
  let n ← natural? digits
  if digits.length ≤ maxDigits then some (if negative then -Int.ofNat n else Int.ofNat n) else none

/-! ### Doubles -/

/-- The bits of the double nearest to `n · 10 ^ e`, those of infinity beyond the range. An exponent far out of range is
    settled by the place of the leading digit alone. -/
def decimalBits (n : Nat) (e : Int) : Nat :=
  let place := Int.ofNat (digitsOf n).length + e
  if n = 0 || place < -400 then 0
  else if 400 < place then infinityBits
  else min infinityBits (if 0 ≤ e then nearestBits (n * 10 ^ e.toNat) 1 else nearestBits n (10 ^ (-e).toNat))

/-- The exponent after a mantissa: none, or a letter, an optional sign and digits. -/
def exponent? : List Char → Option Int
  | [] => some 0
  | c :: rest =>
    if c = 'e' || c = 'E' then
      let (negative, digits) := splitSign rest
      (natural? digits).map fun n => if negative then -Int.ofNat n else Int.ofNat n
    else none

/-- The bits of the double that an unsigned decimal text denotes. -/
def unsignedBits? (cs : List Char) : Option Nat := do
  let whole := cs.takeWhile Char.isDigit
  let rest := cs.dropWhile Char.isDigit
  let (fraction, rest) := match rest with
    | '.' :: after => (after.takeWhile Char.isDigit, after.dropWhile Char.isDigit)
    | _ => ([], rest)
  let mantissa ← natural? (whole ++ fraction)
  let e ← exponent? rest
  some (decimalBits mantissa (e - fraction.length))

/-- The double that a text denotes. -/
def float? (s : String) : Option Float := do
  let cs ← dropUnderscores (core s)
  let (negative, size) := splitSign cs
  let name := size.map Char.toLower
  if name = "inf".toList || name = "infinity".toList then some (ofBits negative infinityBits)
  else if name = "nan".toList then some nan
  else (unsignedBits? size).map (ofBits negative)

end CpuLoad.Numeral
