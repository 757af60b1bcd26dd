import CpuLoad.Identity
import CpuLoad.Notice
import CpuLoad.Reading

/-!
What the sampler asks of a platform's counters. A reading may fail and may have any shape. A source that measures the
load itself offers its direct reading, a percentage.
-/
namespace CpuLoad

/-- A platform's counters. -/
structure Source (m : Type → Type) where
  name : String
  /-- The number of logical processors. -/
  logical : Int
  /-- The number of physical processors. -/
  physical : Int
  /-- The processor's description. -/
  identity : ExceptT Fault m Identity
  /-- The row of ticks of all processors together. -/
  aggregate : ExceptT Fault m Value
  /-- One row of ticks for each logical processor. -/
  perProcessor : ExceptT Fault m Value
  /-- The load in percent, if the source measures it; a reading of nothing is not available. -/
  direct : Option (ExceptT Fault m Value)
  /-- The seconds since the system started. -/
  uptime : ExceptT Fault m Value
  /-- The load averages of one, five and fifteen minutes, as many as asked for; one that is not available is below
      zero. -/
  averages : Value → ExceptT Fault m (List Value)

namespace Source

-- Powers are the core library's, whatever else is loaded. For that a literal exponent has its type.
attribute [local instance (high)] instPowNat

/-! ### Counts -/

/-- The first `n` items of a list, or for a negative `n` all but the last `-n`. -/
def firstItems {α : Type} (n : Int) (xs : List α) : List α :=
  if 0 ≤ n then xs.take n.toNat else xs.take (xs.length - (-n).toNat)

/-- The first items of a list, as many as a value says. A value of nothing sets no limit. -/
def firstCounted {α : Type} (count : Value) (xs : List α) : Except Fault (List α) :=
  match count with
  | .null => .ok xs
  | .bool b => .ok (firstItems (if b then 1 else 0) xs)
  | .int n => .ok (firstItems n xs)
  | _ => .error .wrongKind

/-- The most items that a list of load averages has room for. -/
def mostAverages : Int := 2 ^ (28 : Nat)

/-- Load averages of which none is available, as many as a value says. -/
def noAverages : Value → Except Fault (List Value)
  | .bool b => .ok (if b then [.float (-1.0)] else [])
  | .int n =>
    if 2 ^ (63 : Nat) ≤ n || n < -2 ^ (63 : Nat) then .error .tooLarge
    else if mostAverages < n then .error .noRoom
    else .ok (List.replicate n.toNat (.float (-1.0)))
  | _ => .error .wrongKind

/-- Whether a value is a number of load averages that can be asked for. -/
def isAverageCount (count : Value) : Except Fault Bool := do
  let n ← Number.ofValue count
  return (Number.int 1).atMost n && n.atMost (.int 3)

/-- A number of processors, at least one where none is known. -/
def countOr (fallback : Int) : Option Int → Int
  | none => fallback
  | some n => if n = 0 then fallback else n

def directReading {m : Type → Type} [Monad m] (source : Source m) : ExceptT Fault m Value :=
  source.direct.getD (pure .null)

end Source
end CpuLoad
