import CpuLoad.ProcSource
import CpuLoad.Ticks

/-!
Ticks from times in seconds, counted in whole milliseconds. A state that the platform does not report has no ticks. The
platform also measures the load itself, as a percentage.
-/
namespace CpuLoad

/-- What a platform reports about its processors' times. -/
structure TimesPlatform (m : Type → Type) where
  /-- The number of logical processors, if known. -/
  logical : Option Int
  /-- The number of physical processors, if known. -/
  physical : Option Int
  /-- The seconds in each state, of all processors together. -/
  times : ExceptT Fault m (List (String × Value))
  /-- The seconds in each state, of each processor. -/
  processorTimes : ExceptT Fault m (List (List (String × Value)))
  /-- The load in percent since the last call. -/
  percent : ExceptT Fault m Value
  /-- The wall-clock time. -/
  now : ExceptT Fault m Value
  /-- The wall-clock time at which the system started. -/
  started : ExceptT Fault m Value
  averages : ExceptT Fault m Value
  /-- Whether the processors are described in files as well. -/
  hasDescriptions : Bool

namespace TimesSource
variable {m : Type → Type} [Monad m] [Files m] [Log m]

def ticksPerSecond : Int := 1000

/-- The ticks of a time in seconds. A text in place of a number is repeated as often and then read. -/
def ticksOf : Value → Except Fault Int
  | .text s => (Value.text (String.join (List.replicate ticksPerSecond.toNat s))).toInt
  | v => do (← (← Number.ofValue v).mul (.int ticksPerSecond)).toInt

def snapshotOf (times : List (String × Value)) : Except Fault Snapshot := do
  let row ← Tick.all.mapM fun t => ticksOf ((times.lookup t.name).getD (.float 0.0))
  return Snapshot.ofList row

/-- The load averages, each of the three that is not available below zero. -/
def averages (platform : TimesPlatform m) (count : Value) : ExceptT Fault m (List Value) := do
  let known ← match ← Fault.attempt platform.averages with
    | .ok v => MonadExcept.ofExcept v.visits
    | .error e =>
      if e.isSystem || e matches .reported .unsupported _ then note .averagesUnavailable; pure []
      else throw e
  MonadExcept.ofExcept (Source.firstCounted count (known ++ List.replicate (3 - known.length) (.float (-1.0))))

/-- The source over a platform's times; `descriptions` and `serial` are the files that describe the processors. -/
def source (platform : TimesPlatform m) (descriptions serial : String) (known : Identity) : Source m :=
  let logical := Source.countOr 1 platform.logical
  { name := "psutil"
    logical := logical
    physical := Source.countOr logical platform.physical
    identity := if platform.hasDescriptions then ProcSource.describe descriptions serial known else pure known
    aggregate := do return (← MonadExcept.ofExcept (snapshotOf (← platform.times))).toReading
    perProcessor := do
      return .list ((← MonadExcept.ofExcept ((← platform.processorTimes).mapM snapshotOf)).map Snapshot.toReading)
    direct := some platform.percent
    uptime := do
      let now ← platform.now
      MonadExcept.ofExcept (now.minus (← platform.started))
    averages := averages platform }

end TimesSource
end CpuLoad
