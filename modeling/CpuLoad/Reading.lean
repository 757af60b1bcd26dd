import CpuLoad.Fault
import CpuLoad.Numeral

/-!
How a value of any shape is read as an integer, as a double or as a row of entries, and the arithmetic of integers and
doubles together: a double makes the result a double. An integer and a double are compared exactly.
-/
namespace CpuLoad
open CpuLoad.Binary64

namespace Value

def ascii? (bytes : List UInt8) : Option String :=
  if bytes.all (· < 128) then some (String.ofList (bytes.map fun b => Char.ofNat b.toNat)) else none

/-- The integer of a value: a double loses its fraction, and a text or bytes are read. -/
def toInt : Value → Except Fault Int
  | bool b => .ok (if b then 1 else 0)
  | int n => .ok n
  | float x =>
    match parts x with
    | .nan => .error .notNumber
    | .infinite _ => .error .tooLarge
    | .finite .. => .ok ((truncate? x).getD 0)
  | text s => ((Numeral.int? s).map .ok).getD (.error .notNumber)
  | bytes bs => (((ascii? bs).bind Numeral.int?).map .ok).getD (.error .notNumber)
  | _ => .error .wrongKind

/-- The double nearest to a value, which may also be a text or bytes that are read. -/
def toFloat : Value → Except Fault Float
  | bool b => .ok (if b then 1.0 else 0.0)
  | int n => ((ofInt? n).map .ok).getD (.error .tooLarge)
  | float x => .ok x
  | text s => ((Numeral.float? s).map .ok).getD (.error .notNumber)
  | bytes bs => (((ascii? bs).bind Numeral.float?).map .ok).getD (.error .notNumber)
  | _ => .error .wrongKind

/-- The entries of a value that has entries in a row: a list's items, a text's characters. -/
def entries : Value → Except Fault (List Value)
  | list items => .ok items
  | text s => .ok ((CodePoint.points s).map fun n => text (CodePoint.stringOf [n]))
  | _ => .error .wrongKind

/-- What a walk through a value meets: its entries in a row, or the keys of a table. -/
def visits : Value → Except Fault (List Value)
  | table rows => .ok (rows.map (·.1))
  | v => v.entries

/-- The number of entries or rows of a value. -/
def size (v : Value) : Except Fault Nat := v.visits.map List.length

end Value

/-- The items of a list are read together exactly if each of them is, and with the same results. -/
theorem mapM_eq_ok_iff {ε α β : Type} {f : α → Except ε β} {xs : List α} {ys : List β} :
    xs.mapM f = .ok ys ↔ xs.map f = ys.map .ok := by
  induction xs generalizing ys with
  | nil => cases ys <;> simp [pure, Except.pure]
  | cons x xs ih =>
    rw [List.mapM_cons]
    cases first : f x with
    | error e => cases ys <;> simp [first, bind, Except.bind]
    | ok y =>
      cases rest : xs.mapM f with
      | error e => cases ys <;> simp [first, bind, Except.bind, ← ih, rest]
      | ok zs => cases ys <;> simp [first, bind, Except.bind, pure, Except.pure, ← ih, rest]

/-- A traversal succeeds if it does so on each item. -/
theorem exists_mapM_eq_ok {ε α β : Type} {f : α → Except ε β} {xs : List α} (each : ∀ x ∈ xs, ∃ y, f x = .ok y) :
    ∃ ys, xs.mapM f = .ok ys := by
  induction xs with
  | nil => exact ⟨[], rfl⟩
  | cons x xs ih =>
    obtain ⟨y, first⟩ := each x (List.mem_cons_self ..)
    obtain ⟨ys, rest⟩ := ih fun x' member => each x' (List.mem_cons_of_mem _ member)
    refine ⟨y :: ys, mapM_eq_ok_iff.mpr ?_⟩
    rw [List.map_cons, List.map_cons, first, mapM_eq_ok_iff.mp rest]

/-! ### Numbers of two kinds -/

/-- An integer or a double. -/
inductive Number
  | int (n : Int)
  | float (x : Float)
  deriving Inhabited

namespace Number

/-! ### Arithmetic -/

def ofValue : Value → Except Fault Number
  | .bool b => .ok (int (if b then 1 else 0))
  | .int n => .ok (int n)
  | .float x => .ok (float x)
  | _ => .error .wrongKind

/-- The double nearest to a number. -/
def toFloat : Number → Except Fault Float
  | int n => (Value.int n).toFloat
  | float x => .ok x

/-- An operation on two integers, or on two doubles if one of the numbers is a double. -/
def combine (onInts : Int → Int → Int) (onFloats : Float → Float → Float) : Number → Number → Except Fault Number
  | int m, int n => .ok (int (onInts m n))
  | a, b => do .ok (float (onFloats (← a.toFloat) (← b.toFloat)))

def add : Number → Number → Except Fault Number := combine (· + ·) (· + ·)

def sub : Number → Number → Except Fault Number := combine (· - ·) (· - ·)

def mul : Number → Number → Except Fault Number := combine (· * ·) (· * ·)

/-- The quotient as a double. Two integers are divided exactly and rounded once. -/
def div : Number → Number → Except Fault Float
  | int m, int n => ((nearest? (mkRat (m * n.sign) n.natAbs)).map .ok).getD (.error .tooLarge)
  | a, b => do .ok ((← a.toFloat) / (← b.toFloat))

def toValue : Number → Value
  | int n => .int n
  | float x => .float x

@[simp] theorem ofValue_toValue (n : Number) : ofValue n.toValue = .ok n := by cases n <;> rfl

/-! ### Order -/

/-- A number's place in the order of all numbers: a rational, or beyond all of them on one side. -/
inductive Place
  | below
  | at (q : Rat)
  | above

def place? : Number → Option Place
  | int n => some (.at n)
  | float x =>
    match parts x with
    | .nan => none
    | .infinite true => some .below
    | .infinite false => some .above
    | .finite .. => some (.at ((value? x).getD 0))

/-- Whether a place lies before another one. -/
def Place.before : Place → Place → Bool
  | .below, .below => false
  | .below, _ => true
  | .at _, .below => false
  | .at p, .at q => decide (p < q)
  | .at _, .above => true
  | .above, _ => false

/-- Whether a number is less than another one. What is not a number is not less than anything. -/
def less (a b : Number) : Bool :=
  match a.place?, b.place? with
  | some p, some q => p.before q
  | _, _ => false

/-- Whether a number is another one or less. -/
def atMost (a b : Number) : Bool :=
  match a.place?, b.place? with
  | some p, some q => !q.before p
  | _, _ => false

/-- Whether a number is above zero. -/
def isPositive (a : Number) : Bool := (int 0).less a

/-- Whether a number is zero or above. -/
def isNonnegative (a : Number) : Bool := (int 0).atMost a

def toInt : Number → Except Fault Int
  | int n => .ok n
  | float x => (Value.float x).toInt

end Number

/-- The difference of two values that are numbers. -/
def Value.minus (v w : Value) : Except Fault Value := do
  return (← (← Number.ofValue v).sub (← Number.ofValue w)).toValue

/-- Whether a value is less than another one, if both are numbers. -/
def Value.isLess (v w : Value) : Except Fault Bool := do
  return (← Number.ofValue v).less (← Number.ofValue w)

end CpuLoad
