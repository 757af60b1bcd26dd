import CpuLoad.Binary64
import CpuLoad.DecimalDigit

/-!
The fewest digits that read back as the same double, and of those the decimal nearest to it. A double stands for the
interval of numbers that round to it; the search takes grids of ever finer decimals and stops at the first one with a
point in that interval. A number from `1e-4` to below `1e16` is written positionally with at least one digit after the
point, any other with an exponent of at least two digits.
-/
namespace CpuLoad.Shortest
open CpuLoad.Binary64 CpuLoad.DecimalDigit

-- Powers are the core library's, whatever else is loaded. For that a literal exponent has its type.
attribute [local instance (high)] instPowNat

/-- A decimal number `digits · 10 ^ exponent`. -/
structure Decimal where
  digits : Nat
  exponent : Int
  deriving Repr, DecidableEq

/-- The number of decimal digits of a natural number. -/
def digitCount (n : Nat) : Int := (digitsOf n).length

/-- The decade of a positive quotient: the least `k` for which the quotient is below `10 ^ k`. -/
def decade (n d : Nat) : Int :=
  if d ≤ n then digitCount (n / d) else 1 - digitCount ((d + n - 1) / n - 1)

/-- The greatest and least multiples of a quarter of the last place that still round to `m · 2 ^ e`. Below a power of
    two the doubles lie twice as close. -/
def quarters (m : Nat) (e : Int) : Nat × Nat :=
  (if m = 2 ^ (52 : Nat) && e != -1074 then 4 * m - 1 else 4 * m - 2, 4 * m + 2)

/-- Of the two decimals with last place `10 ^ s` around `m · 2 ^ e`, the one that reads back as that double: the nearer
    one if both do, and the even one of two equally near. -/
def onGrid (m : Nat) (e s : Int) : Option Nat :=
  let quarter := e - 2
  let grid := 10 ^ s.toNat * 2 ^ (-quarter).toNat
  let unit := 2 ^ quarter.toNat * 10 ^ (-s).toNat
  let inside (c : Nat) : Bool :=
    let (low, high) := quarters m e
    if m % 2 = 0 then low * unit ≤ c * grid && c * grid ≤ high * unit
    else low * unit < c * grid && c * grid < high * unit
  let below := 4 * m * unit / grid
  let above := below + 1
  match inside below, inside above with
  | false, false => none
  | true, false => some below
  | false, true => some above
  | true, true =>
    let down := 4 * m * unit - below * grid
    let up := above * grid - 4 * m * unit
    if down < up then some below else if up < down then some above
    else if below % 2 = 0 then some below else some above

/-- The decimal without zeros at its end. -/
def Decimal.trim (x : Decimal) : Decimal :=
  let zeros := (digitsOf x.digits).reverse.takeWhile (· == '0')
  if x.digits = 0 then x else ⟨x.digits / 10 ^ zeros.length, x.exponent + zeros.length⟩

/-- The shortest decimal that reads back as the positive double `m · 2 ^ e`. Seventeen digits always do. -/
def shortest (m : Nat) (e : Int) : Decimal :=
  let k := if 0 ≤ e then decade (m * 2 ^ e.toNat) 1 else decade m (2 ^ (-e).toNat)
  let found := (List.range 17).findSome? fun n =>
    (onGrid m e (k - Int.ofNat (n + 1))).map fun c => Decimal.mk c (k - Int.ofNat (n + 1))
  (found.getD ⟨m, e⟩).trim

/-! ### Written form -/

/-- Digits with a point before the last `-exponent` of them. -/
def positional (x : Decimal) : List Char :=
  let digits := digitsOf x.digits
  let point := Int.ofNat digits.length + x.exponent
  if point ≤ 0 then '0' :: '.' :: List.replicate (-point).toNat '0' ++ digits
  else if 0 ≤ x.exponent then digits ++ List.replicate x.exponent.toNat '0' ++ ['.', '0']
  else digits.take point.toNat ++ '.' :: digits.drop point.toNat

/-- One digit before the point and an exponent with its sign. -/
def scientific (x : Decimal) : List Char :=
  let digits := digitsOf x.digits
  let power := Int.ofNat digits.length + x.exponent - 1
  let size := digitsOf power.natAbs
  let mantissa := if digits.length = 1 then digits else digits.take 1 ++ '.' :: digits.drop 1
  mantissa ++ 'e' :: (if power < 0 then '-' else '+') :: List.replicate (2 - size.length) '0' ++ size

def positiveText (m : Nat) (e : Int) : List Char :=
  let x := shortest m e
  let point := Int.ofNat (digitsOf x.digits).length + x.exponent
  if -4 < point && point ≤ 16 then positional x else scientific x

def text (x : Float) : String :=
  match parts x with
  | .nan => "nan"
  | .infinite negative => if negative then "-inf" else "inf"
  | .finite negative m e =>
    let size := if m = 0 then ['0', '.', '0'] else positiveText m e
    String.ofList (if negative then '-' :: size else size)

end CpuLoad.Shortest
