import CpuLoad.Fault
import CpuLoad.Notice
import CpuLoad.Sample

/-!
In each round all collectors are asked in order and their samples are handed, as one batch, to all sinks in order. A
collector or a sink that fails is reported and skipped; an interrupt is no failure and leaves at once. After a round the
program ends at the cap of rounds, or waits for the interval unless it is told to stop.
-/
namespace CpuLoad

/-- Something that answers a batch of samples. -/
structure Collecting (m : Type → Type) where
  name : String
  collect : ExceptT Fault m (List Sample)

/-- Something that takes a batch of samples. -/
abbrev Sink (m : Type → Type) := List Sample → ExceptT Fault m Unit

/-- How a run is told to stop. -/
structure Stop (m : Type → Type) where
  /-- Whether the run has been told to stop. -/
  isSet : m Bool
  /-- Waits for an interval, or until told to stop. -/
  wait : Value → ExceptT Fault m Unit

namespace Rounds
variable {m : Type → Type} [Monad m] [Log m]

/-- Runs an operation whose failure is reported and replaced by a value. -/
def guarded {α : Type} (notice : Notice) (default : α) (x : ExceptT Fault m α) : ExceptT Fault m α := do
  match ← Fault.attempt x with
  | .ok a => return a
  | .error e => if e.isFailure then note notice; return default else throw e

/-- The samples of the collectors that do not fail, in order. -/
def gather : List (Collecting m) → ExceptT Fault m (List Sample)
  | [] => return []
  | c :: rest => do
    let own ← guarded (.collectorFailed c.name) [] c.collect
    return own ++ (← gather rest)

/-- Hands a batch to every sink in order. -/
def dispatch (batch : List Sample) : List (Sink m) → ExceptT Fault m Unit
  | [] => return
  | sink :: rest => do
    guarded .sinkFailed () (sink batch)
    dispatch batch rest

/-- How a run ended. -/
inductive Ending
  | stopped (rounds : Nat)
  /-- It went on beyond the given number of rounds. -/
  | unfinished (rounds : Nat)
  deriving DecidableEq, Inhabited

/-- Whether a number of rounds has reached the cap. A cap of nothing is none. -/
def reached (cap : Value) (rounds : Nat) : Except Fault Bool :=
  match cap with
  | .null => .ok false
  | cap => do return (← Number.ofValue cap).atMost (.int rounds)

/-- The rounds after the first `done` ones, at most `fuel` of them. -/
def continueFrom (collectors : List (Collecting m)) (sinks : List (Sink m)) (stop : Stop m) (interval cap : Value)
    (done : Nat) : Nat → ExceptT Fault m Ending
  | 0 => return .unfinished done
  | fuel + 1 => do
    if ← ExceptT.lift stop.isSet then return .stopped done
    dispatch (← gather collectors) sinks
    if ← MonadExcept.ofExcept (reached cap (done + 1)) then return .stopped (done + 1)
    stop.wait interval
    continueFrom collectors sinks stop interval cap (done + 1) fuel

def run (collectors : List (Collecting m)) (sinks : List (Sink m)) (stop : Stop m) (interval cap : Value)
    (fuel : Nat) : ExceptT Fault m Ending := do
  note (.roundsStarted interval)
  let ending ← continueFrom collectors sinks stop interval cap 0 fuel
  if let .stopped rounds := ending then note (.roundsStopped rounds)
  return ending

end Rounds
end CpuLoad
