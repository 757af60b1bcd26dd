import CpuLoad.Meter
import CpuLoad.Source
import CpuLoad.Store
import CpuLoad.Ticks

/-!
A sampler keeps one store for all processors together, one for the processors each, and a meter if it uses the direct
readings of its source. The three channels share no state. Each query is labelled with the reading that its pull would
bring at that moment; whether the pull is made is the channel's own decision.
-/
namespace CpuLoad

/-- The three channels of a sampler and what they were set up with. -/
structure Sampler (τ : Type) where
  /-- The number of logical processors. -/
  cores : Int
  identity : Identity
  /-- The age in milliseconds beyond which a sample is replaced. -/
  threshold : τ
  /-- The time in milliseconds for which a direct reading is held. -/
  hold : τ
  system : Store τ Snapshot
  processors : Store τ (List Snapshot)
  meter : Option (Meter τ)
  deriving Inhabited

namespace Sampler
variable {τ : Type}

/-! ### Samples -/

/-- Whether some processor has ticks. -/
def isUsable (rows : List Snapshot) : Bool := rows.any Snapshot.isNonzero

/-- A snapshot is kept if some state has ticks. -/
def acceptRow : Judgement Snapshot := fun row => .ok row.isNonzero

/-- A matrix is kept if some processor has ticks. -/
def acceptMatrix : Judgement (List Snapshot) := fun rows => .ok (isUsable rows)

/-- One snapshot for each of `cores` processors: surplus rows are dropped and absent ones are zero. -/
def matrixOf (cores : Int) (rows : List Value) : Except Fault (List Snapshot) := do
  let known ← (Source.firstItems cores rows).mapM Snapshot.ofReading
  return known ++ List.replicate (cores - known.length).toNat .zero

/-- A matrix has one snapshot for each processor, whatever the source gave. -/
theorem length_matrixOf {cores : Int} (nonneg : 0 ≤ cores) {rows : List Value} {matrix : List Snapshot}
    (h : matrixOf cores rows = .ok matrix) : (matrix.length : Int) = cores := by
  unfold matrixOf at h
  cases known : (Source.firstItems cores rows).mapM Snapshot.ofReading with
  | error e => simp [known, bind, Except.bind] at h
  | ok found =>
    have length := congrArg List.length (mapM_eq_ok_iff.1 known)
    simp only [List.length_map, Source.firstItems, nonneg, if_true, List.length_take] at length
    simp [known, bind, Except.bind, pure, Except.pure] at h
    subst h
    simp
    omega

/-- The busy share of each processor. -/
def loads (pair : List Snapshot × List Snapshot) : Except Fault (List Float) :=
  (pair.1.zip pair.2).mapM fun (previous, current) => previous.load current

/-! ### First samples -/

def blank (cores : Int) (identity : Identity) (threshold hold : τ) : Sampler τ :=
  { cores, identity, threshold, hold
    system := .start .zero
    processors := .start (List.replicate cores.toNat .zero)
    meter := none }

/-- Whether a first sample of all processors together is taken, and the sampler after it. -/
def seedSystem (now : τ) (row : Snapshot) (s : Sampler τ) : Except Fault Bool × Sampler τ :=
  let (taken, store) := s.system.seed acceptRow now row
  (taken, { s with system := store })

def seedProcessors (now : τ) (rows : List Snapshot) (s : Sampler τ) : Except Fault Bool × Sampler τ :=
  let (taken, store) := s.processors.seed acceptMatrix now rows
  (taken, { s with processors := store })

/-! ### Queries -/

def querySystem [Elapsed τ] (now : τ) (reading : Except Fault Snapshot) (s : Sampler τ) :
    Except Fault (Snapshot × Snapshot) × Sampler τ :=
  let (answer, store) := s.system.query acceptRow s.threshold now reading
  (answer, { s with system := store })

def queryProcessors [Elapsed τ] (now : τ) (reading : Except Fault (List Snapshot))
    (s : Sampler τ) : Except Fault (List Snapshot × List Snapshot) × Sampler τ :=
  let (answer, store) := s.processors.query acceptMatrix s.threshold now reading
  (answer, { s with processors := store })

def queryMeter [Elapsed τ] (now : τ) (reading : Except Fault (Option Float)) (meter : Meter τ)
    (s : Sampler τ) : Except Fault Float × Sampler τ :=
  let (answer, meter) := meter.query s.hold now reading
  (answer, { s with meter := some meter })

end Sampler
end CpuLoad
