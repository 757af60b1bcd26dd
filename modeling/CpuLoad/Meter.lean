import CpuLoad.Elapsed

/-!
Some sources measure the load themselves, as a percentage. A meter polls such a source at most once in a while: within
that time after a poll it answers the value it has. A reading that is not available keeps the value, any other one is
brought to a share between zero and one.
-/
namespace CpuLoad

/-- The last direct value and the time of the last poll. -/
structure Meter (τ : Type) where
  value : Float
  polled : τ
  deriving Inhabited

/-- A percentage as a share, brought to the nearer end of the unit interval if it lies outside. -/
def unitShare (percent : Float) : Float :=
  let share := percent / 100.0
  let atLeastZero := if share < 0.0 then 0.0 else share
  if 1.0 < atLeastZero then 1.0 else atLeastZero

namespace Meter
variable {τ : Type}

/-- The percentage that a source gave, if it gave one at all. -/
def percentOf : Value → Except Fault (Option Float)
  | .null => .ok none
  | v => do return some (← (← Number.ofValue v).toFloat)

def available (reading : Option Float) : Option Float := reading.filter fun x => !x.isNaN

def valueAfter (kept : Float) (reading : Option Float) : Float :=
  ((available reading).map unitShare).getD kept

/-- The meter after its first poll, which a time before it counts for. -/
def start (now : τ) (reading : Option Float) : Meter τ := ⟨valueAfter 0.0 reading, now⟩

/-- Whether the value is too old to be answered. -/
def due [Elapsed τ] (hold now : τ) (m : Meter τ) : Except Fault Bool :=
  (Elapsed.isWithin hold now m.polled).map (!·)

def poll (now : τ) (reading : Option Float) (m : Meter τ) : Meter τ := ⟨valueAfter m.value reading, now⟩

/-- The answer to a query for which a poll would bring `reading`, and the meter after it. -/
def query [Elapsed τ] (hold now : τ) (reading : Except Fault (Option Float)) (m : Meter τ) :
    Except Fault Float × Meter τ :=
  match m.due hold now with
  | .error e => (.error e, m)
  | .ok false => (.ok m.value, m)
  | .ok true =>
    match reading with
    | .error e => (.error e, m)
    | .ok r => let m' := m.poll now r; (.ok m'.value, m')

/-! ### What a query leaves -/

section
variable [Elapsed τ] {hold now : τ} {m : Meter τ}

theorem query_of_held {reading : Except Fault (Option Float)} (h : m.due hold now = .ok false) :
    m.query hold now reading = (.ok m.value, m) := by
  simp [query, h]

/-- A poll that fails leaves the meter as it was. -/
theorem query_error (e : Fault) : (m.query hold now (.error e)).2 = m := by
  unfold query
  split <;> rfl

/-- A poll that answers, with a number or without, brings the meter to the time of the query. -/
theorem query_of_due {reading : Option Float} (h : m.due hold now = .ok true) :
    m.query hold now (.ok reading) = (.ok (valueAfter m.value reading), ⟨valueAfter m.value reading, now⟩) := by
  simp [query, h, poll]

end

end Meter
end CpuLoad
