import CpuLoad.Binary64
import CpuLoad.DecimalDigit

/-!
Doubles written with a fixed number of places after the point: the exact value is rounded once, a tie going to the even
neighbour, and the sign of a negative zero is kept.
-/
namespace CpuLoad.FixedPoint
open CpuLoad.Binary64 CpuLoad.DecimalDigit

-- Powers are the core library's, whatever else is loaded.
attribute [local instance (high)] instPowNat

/-- A natural number of units of `10 ^ -places`, written with a point before the last `places` digits. -/
def unitsText (places units : Nat) : List Char :=
  let digits := digitsOf units
  let filled := List.replicate (places + 1 - digits.length) '0' ++ digits
  let whole := filled.take (filled.length - places)
  if places = 0 then whole else whole ++ '.' :: filled.drop (filled.length - places)

def text (places : Nat) (x : Float) : String :=
  match parts x with
  | .nan => "nan"
  | .infinite negative => if negative then "-inf" else "inf"
  | .finite negative m e =>
    let units :=
      if 0 ≤ e then m * 2 ^ e.toNat * 10 ^ places else roundQuotient (m * 10 ^ places) (2 ^ (-e).toNat)
    let size := unitsText places units
    String.ofList (if negative then '-' :: size else size)

/-- A text moved to the right end of a field. -/
def padLeft (width : Nat) (s : String) : String :=
  String.ofList (List.replicate (width - s.length) ' ' ++ s.toList)

/-- A share as a percentage with one place in a field of six characters. -/
def percentText (share : Float) : String := padLeft 6 (text 1 (share * 100.0) ++ "%")

end CpuLoad.FixedPoint
