import CpuLoad.Channel
import CpuLoad.Clock
import CpuLoad.Sampler
import CpuLoad.Source

/-!
Queries of a sampler over a source and a clock. A query reads the clock, asks the source only if its channel is due, and
hands what the source gave to the sampler's channel; raw queries ask the source and leave the sampler alone.
-/
namespace CpuLoad.Sampling
open CpuLoad.Channel
variable {m : Type → Type} [Monad m] [Log m] [Clock m]

/-- What runs against a sampler: a fault keeps the state reached before it. -/
abbrev SamplingM (m : Type → Type) := ChannelM m (Sampler Value)

def now : SamplingM m Value := Clock.milliseconds

/-- An operation of the source. -/
def ask {α : Type} (x : ExceptT Fault m α) : SamplingM m α := ExceptT.mk (StateT.lift x.run)

/-! ### Names of the stores -/

/-- The name of the store of all processors together. -/
def systemStore : String := "system ticks"

def processorStore : String := "processor ticks"

/-! ### Pulls -/

/-- The snapshot of all processors together, straight from the source. -/
def pullSystem (source : Source m) : SamplingM m Snapshot := do
  MonadExcept.ofExcept (Snapshot.ofReading (← ask source.aggregate))

def pullProcessors (source : Source m) : SamplingM m (List Snapshot) := do
  let matrix ← ask source.perProcessor
  let found ← MonadExcept.ofExcept matrix.size
  let cores := (← get).cores
  if (found : Int) ≠ cores then note (.rowCount found cores)
  MonadExcept.ofExcept (do Sampler.matrixOf cores (← matrix.entries))

/-! ### Queries -/

/-- The busy share of all processors together between the last two samples. -/
def systemTickLoad (source : Source m) : SamplingM m Float := do
  let now ← now
  let (previous, current) ← refresh systemStore Sampler.acceptRow (← get).threshold now Sampler.system
    (Sampler.querySystem now) (pullSystem source)
  MonadExcept.ofExcept (previous.load current)

/-- The busy share of each processor between the last two samples. -/
def processorLoads (source : Source m) : SamplingM m (List Float) := do
  let now ← now
  let pair ← refresh processorStore Sampler.acceptMatrix (← get).threshold now Sampler.processors
    (Sampler.queryProcessors now) (pullProcessors source)
  MonadExcept.ofExcept (Sampler.loads pair)

/-- The load of all processors together: the direct value if the sampler uses one, else the busy share. -/
def systemLoad (source : Source m) : SamplingM m Float := do
  match (← get).meter with
  | none => systemTickLoad source
  | some meter =>
    let now ← now
    measure (← get).hold now meter (fun reading => Sampler.queryMeter now reading meter) (ask source.directReading)

/-- The load averages of one, five and fifteen minutes, as many as asked for. -/
def loadAverages (source : Source m) (count : Value) : SamplingM m (List Value) := do
  if ← MonadExcept.ofExcept (Source.isAverageCount count) then ask (source.averages count) else throw .averageCount

/-! ### Setting up -/

def prime (source : Source m) (useDirect : Bool) (now : Value) : SamplingM m Unit := do
  let row ← pullSystem source
  let _ ← seed systemStore (Sampler.seedSystem now row)
  let rows ← pullProcessors source
  let _ ← seed processorStore (Sampler.seedProcessors now rows)
  match source.direct with
  | some poll =>
    if useDirect then
      let meter ← startMeter now (ask poll)
      modify fun s => { s with meter := some meter }
      note (.directUsed source.name)
    else note .directUnused
  | none => note .directUnused

def start (source : Source m) (threshold hold : Value) (useDirect : Bool) : ExceptT Fault m (Sampler Value) := do
  let identity ← source.identity
  let now ← (Clock.milliseconds : ExceptT Fault m Value)
  let (result, s) ←
    ExceptT.lift ((prime source useDirect now).run.run (.blank source.logical identity threshold hold))
  match result with
  | .ok () => return s
  | .error e => throw e

/-! ### Description -/

def description (source : Source m) (s : Sampler Value) : Except Fault String := do
  let name ← s.identity.name.shown
  let vendor ← s.identity.vendor.shown
  return "CentralProcessor(name=" ++ name ++ ", vendor=" ++ vendor ++ ", identifier=" ++
    Quoted.quoted (← s.identity.identifier) ++ ", source=" ++ Quoted.quoted source.name ++ ", logical=" ++
    DecimalDigit.intText s.cores ++ ", native=" ++ (Value.bool s.meter.isSome).quoted ++ ")"

end CpuLoad.Sampling
