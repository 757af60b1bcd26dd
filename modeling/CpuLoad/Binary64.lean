/-!
A finite double is `± m · 2 ^ e` for a natural number `m` below `2 ^ 53` and an exponent from `-1074` on. `parts` takes
a double apart, and `nearest?` gives the double nearest to a rational number, a tie going to the even neighbour. A
quotient that rounds beyond the largest double has none.
-/
namespace CpuLoad.Binary64

-- Powers are the core library's, whatever else is loaded. For that a literal exponent has its type.
attribute [local instance (high)] instPowNat

/-- A double taken apart. -/
inductive Parts
  | nan
  | infinite (negative : Bool)
  /-- The number `± m · 2 ^ e`. -/
  | finite (negative : Bool) (m : Nat) (e : Int)
  deriving Repr, DecidableEq

/-- The parts of a double, read off its bits: the sign, eleven bits of exponent and 52 bits of fraction. -/
def parts (x : Float) : Parts :=
  let bits := x.toBits.toNat
  let negative := decide (2 ^ (63 : Nat) ≤ bits)
  let exponent := bits / 2 ^ (52 : Nat) % 2 ^ (11 : Nat)
  let fraction := bits % 2 ^ (52 : Nat)
  if exponent = 2047 then
    if fraction = 0 then .infinite negative else .nan
  else if exponent = 0 then .finite negative fraction (-1074)
  else .finite negative (2 ^ (52 : Nat) + fraction) (Int.ofNat exponent - 1075)

/-- The rational number `m · 2 ^ e`. -/
def scaled (m : Nat) (e : Int) : Rat :=
  if 0 ≤ e then ((m * 2 ^ e.toNat : Nat) : Rat) else mkRat m (2 ^ (-e).toNat)

/-- The value of a finite double. -/
def value? (x : Float) : Option Rat :=
  match parts x with
  | .finite negative m e => some (if negative then -scaled m e else scaled m e)
  | _ => none

/-- The integer nearest to a quotient of natural numbers, a tie going to the even one. -/
def roundQuotient (n d : Nat) : Nat :=
  let q := n / d
  let r := n % d
  if 2 * r < d then q
  else if d < 2 * r then q + 1
  else if q % 2 = 0 then q
  else q + 1

/-- The exponent of the greatest power of two at or below a positive quotient. -/
def floorLog2 (n d : Nat) : Int :=
  let k : Int := Int.ofNat n.log2 - Int.ofNat d.log2
  let atLeast := if 0 ≤ k then decide (d * 2 ^ k.toNat ≤ n) else decide (d ≤ n * 2 ^ (-k).toNat)
  if atLeast then k else k - 1

/-- The bits of the double nearest to a quotient of natural numbers, before the range is checked. The last place is
    worth `2 ^ e`, and a carry out of the fraction adds one to the exponent by itself. -/
def nearestBits (n d : Nat) : Nat :=
  if n = 0 then 0
  else
    let e := max (floorLog2 n d - 52) (-1074)
    let m := if 0 ≤ e then roundQuotient n (d * 2 ^ e.toNat) else roundQuotient (n * 2 ^ (-e).toNat) d
    (e + 1074).toNat * 2 ^ (52 : Nat) + m

/-- The bits of positive infinity, the least bits beyond the finite doubles. -/
def infinityBits : Nat := 2047 * 2 ^ (52 : Nat)

def ofBits (negative : Bool) (bits : Nat) : Float :=
  Float.ofBits (UInt64.ofNat (if negative then 2 ^ (63 : Nat) + bits else bits))

/-- The double nearest to a rational number, unless it lies beyond the largest. -/
def nearest? (q : Rat) : Option Float :=
  let bits := nearestBits q.num.natAbs q.den
  if bits < infinityBits then some (ofBits (decide (q.num < 0)) bits) else none

/-- The double nearest to an integer, unless it lies beyond the largest. -/
def ofInt? (n : Int) : Option Float := nearest? n

def infinity : Float := ofBits false infinityBits

/-- The number that is not a number. -/
def nan : Float := ofBits false (infinityBits + 2 ^ (51 : Nat))

/-- The integer of a finite double without its fraction. -/
def truncate? (x : Float) : Option Int :=
  match parts x with
  | .finite negative m e =>
    let size : Nat := if 0 ≤ e then m * 2 ^ e.toNat else m / 2 ^ (-e).toNat
    some (if negative then -Int.ofNat size else Int.ofNat size)
  | _ => none

end CpuLoad.Binary64
