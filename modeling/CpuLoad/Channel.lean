import CpuLoad.Meter
import CpuLoad.Notice
import CpuLoad.Store

/-!
How a store or a meter is fed: a query reports what it is asked, pulls a reading only if the store or the meter is due,
and takes over the answer and the state that the pure query gives for that reading. The store or the meter may be a part
of a larger state `ρ`.
-/
namespace CpuLoad.Channel
variable {m : Type → Type} [Monad m] [Log m] {ρ σ α : Type}

/-- What runs against a state: a fault keeps the state reached before it. -/
abbrev ChannelM (m : Type → Type) (ρ : Type) := ExceptT Fault (StateT ρ m)

/-- Takes over the answer and the state of a pure step. -/
def settle (step : ρ → Except Fault α × ρ) : ChannelM m ρ α := do
  let (answer, state) := step (← get)
  set state
  MonadExcept.ofExcept answer

/-- Offers a first sample, and answers whether it is taken. -/
def seed (name : String) (take : ρ → Except Fault Bool × ρ) : ChannelM m ρ Bool := do
  let taken ← settle take
  if !taken then note (.seedRejected name)
  return taken

/-- The two generations of a store, after a new sample if it is due. -/
def refresh (name : String) (accept : Judgement σ) (threshold now : Value) (store : ρ → Store Value σ)
    (query : Except Fault σ → ρ → Except Fault (σ × σ) × ρ) (pull : ChannelM m ρ σ) : ChannelM m ρ (σ × σ) := do
  let s := store (← get)
  note (.asked name now (s.refreshed.getD .null))
  if ← MonadExcept.ofExcept (s.due threshold now) then
    let reading ← Fault.attempt pull
    if let .ok sample := reading then
      if let .ok false := accept sample then note (.sampleRejected name)
    settle (query reading)
  else return s.pair

/-- A direct reading, with a notice if it is not available. -/
def reading (kept : Float) (poll : ChannelM m ρ Value) : ChannelM m ρ (Option Float) := do
  let percent ← MonadExcept.ofExcept (Meter.percentOf (← poll))
  if (Meter.available percent).isNone then note (.directUnavailable kept)
  return percent

/-- A meter with its first direct reading. -/
def startMeter (now : Value) (poll : ChannelM m ρ Value) : ChannelM m ρ (Meter Value) := do
  return .start now (← reading 0.0 poll)

/-- The value of a meter, after a new direct reading if it is due. -/
def measure (hold now : Value) (meter : Meter Value)
    (query : Except Fault (Option Float) → ρ → Except Fault Float × ρ) (poll : ChannelM m ρ Value) :
    ChannelM m ρ Float := do
  if ← MonadExcept.ofExcept (meter.due hold now) then
    let reading ← Fault.attempt (reading meter.value poll)
    settle (query reading)
  else return meter.value

end CpuLoad.Channel
