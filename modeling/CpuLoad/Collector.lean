import CpuLoad.Sample
import CpuLoad.Sampling

/-!
One round of queries turned into a batch of samples, or into a table to look at. The total figure of a batch is the
direct one where the sampler has it; the share between ticks stands beside it, so that the two can be compared.
-/
namespace CpuLoad.Collector
open CpuLoad.Sampling
variable {m : Type → Type} [Monad m] [Log m] [Clock m]

/-! ### Batches -/

def processorLabels (name : String) : Value := .table [(.text "cpu", .text name)]

def indexText (i : Nat) : String := String.ofList (DecimalDigit.digitsOf i)

def loadSample (name : String) (time : Value) (load : Float) (processor description : String) : Sample :=
  { name := .text name, value := .float load, unit := .text "1", timestamp := time
    labels := processorLabels processor, description := .text description }

def totalSample (time : Value) (load : Float) : Sample :=
  loadSample "system.cpu.load_ratio" time load "total" "System CPU load"

/-- The sample of the total share between ticks. -/
def ticksSample (time : Value) (load : Float) : Sample :=
  loadSample "system.cpu.load_ratio_ticks" time load "total" "System CPU load between tick samples"

def processorSample (time : Value) (i : Nat) (load : Float) : Sample :=
  loadSample "system.cpu.load_ratio" time load (indexText i)
    ("CPU core " ++ indexText i ++ " load between tick samples")

/-- The samples of the processors each, in the order of their index. -/
def processorSamples (time : Value) (loads : List Float) : List Sample :=
  loads.zipIdx.map fun (load, i) => processorSample time i load

/-- The sample of the load average of one minute, if it is available. -/
def averageSample (time average : Value) : Except Fault (List Sample) := do
  if (← Number.ofValue average).isNonnegative then
    return [{ name := .text "system.cpu.load_avg_1m", value := average, unit := .text "1", timestamp := time
              description := .text "Load average 1 minute" }]
  else return []

/-- The batch of one round. -/
def collect (source : Source m) (perProcessor : Bool) : SamplingM m (List Sample) := do
  let time ← (Clock.wallSeconds : SamplingM m Value)
  let total ← systemLoad source
  let ticks ← systemTickLoad source
  let each ← if perProcessor then processorLoads source else pure []
  match ← loadAverages source (.int 1) with
  | [] => throw .missingEntry
  | average :: _ =>
    let last ← MonadExcept.ofExcept (averageSample time average)
    return [totalSample time total, ticksSample time ticks] ++ processorSamples time each ++ last

/-! ### Tables -/

/-- Where the cells of a column stand. -/
inductive Side
  | left
  | right
  deriving DecidableEq, Inhabited

/-- A table with a title, columns and rows of cells. -/
structure LoadTable where
  title : String
  columns : List (String × Side)
  rows : List (List String)
  deriving Inhabited

def tableRow (name : String) (load : Float) : List String := [name, FixedPoint.percentText load]

def tableColumns : List (String × Side) := [("CPU", .left), ("Load", .right)]

/-- The table of one round. The share between ticks has a row of its own only beside a direct total. -/
def table (source : Source m) (title : String) : SamplingM m LoadTable := do
  let total ← systemLoad source
  let ticks ← if (← get).meter.isSome then pure [tableRow "total (ticks)" (← systemTickLoad source)] else pure []
  let each := (← processorLoads source).zipIdx.map fun (load, i) => tableRow ("cpu" ++ indexText i) load
  return { title, columns := tableColumns, rows := tableRow "total" total :: ticks ++ each }

end CpuLoad.Collector
