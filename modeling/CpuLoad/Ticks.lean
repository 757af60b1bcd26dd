import CpuLoad.Reading

/-!
A processor counts ticks in seven states. A snapshot holds one count for each of them, whatever the length of the row it
was read from. Between two snapshots the busy share is the part of the ticks not spent idle or waiting for a device; it
is zero when the counters did not advance or the idle ones went back. `Snapshot.share` is the exact share and
`Snapshot.load` the double nearest to it.
-/
namespace CpuLoad

/-- The states in which a processor counts ticks. -/
inductive Tick
  | user
  | nice
  | system
  | idle
  | iowait
  | irq
  | softirq
  deriving DecidableEq, Inhabited

namespace Tick

/-- All states, in the order of a row of ticks. -/
def all : List Tick := [user, nice, system, idle, iowait, irq, softirq]

def name : Tick → String
  | user => "user"
  | nice => "nice"
  | system => "system"
  | idle => "idle"
  | iowait => "iowait"
  | irq => "irq"
  | softirq => "softirq"

/-- The place of a state in a row of ticks. -/
def offset : Tick → Nat
  | user => 0
  | nice => 1
  | system => 2
  | idle => 3
  | iowait => 4
  | irq => 5
  | softirq => 6

end Tick

/-- One count for each state. -/
structure Snapshot where
  user : Int
  nice : Int
  system : Int
  idle : Int
  iowait : Int
  irq : Int
  softirq : Int
  deriving DecidableEq, Inhabited

namespace Snapshot

def zero : Snapshot := ⟨0, 0, 0, 0, 0, 0, 0⟩

/-- The counts in the order of a row of ticks. -/
def toList (s : Snapshot) : List Int := [s.user, s.nice, s.system, s.idle, s.iowait, s.irq, s.softirq]

/-- The snapshot of a row: entries beyond the seventh are dropped and absent ones count as zero. -/
def ofList (row : List Int) : Snapshot :=
  let at' := fun i => row.getD i 0
  ⟨at' 0, at' 1, at' 2, at' 3, at' 4, at' 5, at' 6⟩

/-- The snapshot of a raw row whose first seven entries are read as integers. -/
def ofReading (reading : Value) : Except Fault Snapshot := do
  let row ← reading.entries
  .ok (ofList (← (row.take Tick.all.length).mapM Value.toInt))

/-- The snapshot as a raw row. -/
def toReading (s : Snapshot) : Value := .list (s.toList.map .int)

@[simp] theorem ofList_toList (s : Snapshot) : ofList s.toList = s := rfl

@[simp] theorem length_toList (s : Snapshot) : s.toList.length = Tick.all.length := rfl

@[simp] theorem ofReading_toReading (s : Snapshot) : ofReading s.toReading = .ok s := rfl

def isNonzero (s : Snapshot) : Bool := s.toList.any (· != 0)

def total (s : Snapshot) : Int := s.user + s.nice + s.system + s.idle + s.iowait + s.irq + s.softirq

/-- The ticks spent idle or waiting for a device. -/
def resting (s : Snapshot) : Int := s.idle + s.iowait

/-- The exact busy share between two snapshots. -/
def share (previous current : Snapshot) : Rat :=
  let total := current.total - previous.total
  let resting := current.resting - previous.resting
  if 0 < total ∧ 0 ≤ resting then mkRat (total - resting) total.toNat else 0

/-- The busy share between two snapshots, rounded once. -/
def load (previous current : Snapshot) : Except Fault Float :=
  ((Binary64.nearest? (share previous current)).map .ok).getD (.error .tooLarge)

end Snapshot

/-! ### Raw rows -/

/-- Whether a raw row has an entry other than zero. Only numbers and truth values can be zero. -/
def rowIsNonzero (row : Value) : Except Fault Bool := do
  return (← row.visits).any fun v => v.rational? != some 0

/-- Whether one of some raw rows has an entry other than zero. The rows behind the first such one are not looked at. -/
def someRowIsNonzero : List Value → Except Fault Bool
  | [] => .ok false
  | row :: rest => do if ← rowIsNonzero row then return true else someRowIsNonzero rest

/-- Whether a raw matrix has a row with an entry other than zero. -/
def matrixIsNonzero (matrix : Value) : Except Fault Bool := do someRowIsNonzero (← matrix.visits)

/-- The entry of a raw row for a state. A table has it under the state's place as a key. -/
def rowEntry (row : Value) (t : Tick) : Except Fault Value :=
  match row with
  | .table rows => ((Value.at? (.int t.offset) rows).map .ok).getD (.error .unknownWord)
  | row => do ((← row.entries)[t.offset]?.map .ok).getD (.error .missingEntry)

/-- By how much a state's entry grew between two raw rows. -/
def rowGrowth (previous current : Value) (t : Tick) : Except Fault Number := do
  let now ← rowEntry current t
  let before ← rowEntry previous t
  (← Number.ofValue now).sub (← Number.ofValue before)

/-- The busy share between two raw rows of numbers, each with an entry for every state. -/
def rowLoad (previous current : Value) : Except Fault Float := do
  let total ← Tick.all.foldlM (fun sum t => do Number.add sum (← rowGrowth previous current t)) (.int 0)
  let entry (row : Value) (t : Tick) : Except Fault Number := do Number.ofValue (← rowEntry row t)
  let resting ← (← (← (← entry current .idle).add (← entry current .iowait)).sub (← entry previous .idle)).sub
    (← entry previous .iowait)
  if total.isPositive && resting.isNonnegative then (← total.sub resting).div total else .ok 0.0

end CpuLoad
