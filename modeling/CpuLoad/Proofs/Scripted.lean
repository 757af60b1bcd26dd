import CpuLoad.Proofs.Outcome
import CpuLoad.Sampling

/-!
A sampler over a source whose readings are laid down beforehand: for each of its three kinds of reading, what every pull
brings in turn, be it a value of any shape or a fault. A run is a list of queries, each with the clock reading at which
it is made. What a query answers and leaves is told by an equation for each query (`outcome_systemTickLoad` and those
beside it); all of them rest on what a store or a meter does with its own readings alone (`refreshed`, `polled`).
-/
namespace CpuLoad.Scripted
open CpuLoad.Channel CpuLoad.Outcome CpuLoad.Sampling

/-! ### Sources with readings laid down -/

/-- What a source is and what it brings. -/
structure Script where
  name : String
  cores : Int
  physical : Int
  identity : Except Fault Identity
  /-- The rows of ticks of all processors together, in the order in which they are pulled. -/
  rows : Nat → Except Fault Value
  /-- The rows of ticks of the processors each. -/
  matrices : Nat → Except Fault Value
  /-- The direct readings, if the source measures the load itself. -/
  percents : Option (Nat → Except Fault Value)
  uptime : Except Fault Value
  averages : Value → Except Fault (List Value)

/-- How many readings of each kind were pulled, and what the clocks show. -/
structure Progress where
  rows : Nat
  matrices : Nat
  percents : Nat
  now : Value

/-- The surroundings of a scripted source. -/
abbrev World := StateM Progress

instance : Clock World where
  milliseconds := return (← get).now
  wallSeconds := return (← get).now

/-- The next one of some readings, which is used up with it. -/
def next (count : Progress → Nat) (use : Progress → Progress) (readings : Nat → Except Fault Value) :
    ExceptT Fault World Value :=
  ExceptT.mk (modifyGet fun p => (readings (count p), use p))

namespace Progress

def useRow (p : Progress) : Progress := { p with rows := p.rows + 1 }

def useMatrix (p : Progress) : Progress := { p with matrices := p.matrices + 1 }

def usePercent (p : Progress) : Progress := { p with percents := p.percents + 1 }

end Progress

namespace Script

def source (script : Script) : Source World where
  name := script.name
  logical := script.cores
  physical := script.physical
  identity := ExceptT.mk (pure script.identity)
  aggregate := next Progress.rows Progress.useRow script.rows
  perProcessor := next Progress.matrices Progress.useMatrix script.matrices
  direct := script.percents.map (next Progress.percents Progress.usePercent)
  uptime := ExceptT.mk (pure script.uptime)
  averages count := ExceptT.mk (pure (script.averages count))

/-- The snapshot that a pull brings. -/
def row (script : Script) (i : Nat) : Except Fault Snapshot := do Snapshot.ofReading (← script.rows i)

/-- The snapshots of a number of processors that a pull brings. -/
def matrix (script : Script) (cores : Int) (i : Nat) : Except Fault (List Snapshot) := do
  let matrix ← script.matrices i
  let _ ← matrix.size
  Sampler.matrixOf cores (← matrix.entries)

/-- The percentage that a poll brings. A source that measures nothing brings none. -/
def percent (script : Script) (i : Nat) : Except Fault (Option Float) := do
  match script.percents with
  | some percents => Meter.percentOf (← percents i)
  | none => return none

end Script

/-! ### Queries -/

inductive Query
  | systemLoad
  | systemTickLoad
  | processorLoads
  | systemTicks
  | processorTicks
  | averages (count : Value)
  | uptime

inductive Answer
  | load (x : Float)
  | loads (xs : List Float)
  | ticks (row : Snapshot)
  | matrix (rows : List Snapshot)
  | figures (xs : List Value)
  | figure (x : Value)

def Query.program (source : Source World) : Query → SamplingM World Answer
  | systemLoad => .load <$> Sampling.systemLoad source
  | systemTickLoad => .load <$> Sampling.systemTickLoad source
  | processorLoads => .loads <$> Sampling.processorLoads source
  | systemTicks => .ticks <$> pullSystem source
  | processorTicks => .matrix <$> pullProcessors source
  | averages count => .figures <$> loadAverages source count
  | uptime => .figure <$> ask source.uptime

/-- A query and the clock reading at which it is made. -/
structure Call where
  query : Query
  now : Value

/-- A sampler and how far its source has come. -/
structure Stage where
  sampler : Sampler Value
  progress : Progress

namespace Stage

def answer (script : Script) (call : Call) (stage : Stage) : Except Fault Answer × Stage :=
  let result := outcome (call.query.program script.source) stage.sampler { stage.progress with now := call.now }
  (result.1, ⟨result.2.1, result.2.2⟩)

/-- The calls of a run with their answers, and what the run leaves. -/
def run (script : Script) : List Call → Stage → List (Call × Except Fault Answer) × Stage
  | [], stage => ([], stage)
  | call :: calls, stage =>
    let first := stage.answer script call
    let rest := run script calls first.2
    ((call, first.1) :: rest.1, rest.2)

end Stage

/-- How a sampler is set up: with the age beyond which a sample is replaced, the time for which a direct reading is held,
    whether it uses direct readings, and at which clock reading. -/
structure Setup where
  threshold : Value
  hold : Value
  useDirect : Bool
  now : Value

/-- A new sampler over a source, which has its first samples then. -/
def begin (script : Script) (setup : Setup) : Except Fault Stage :=
  let result := (start script.source setup.threshold setup.hold setup.useDirect).run.run ⟨0, 0, 0, setup.now⟩
  result.1.map fun sampler => ⟨sampler, result.2⟩

/-! ### What a store and a meter do with their own readings -/

/-- The answer of a store that is asked at a clock reading, and the store and the number of its pulls after it. -/
def refreshed {σ : Type} (accept : Judgement σ) (threshold now : Value) (readings : Nat → Except Fault σ)
    (store : Store Value σ) (pulled : Nat) : Except Fault (σ × σ) × Store Value σ × Nat :=
  match store.due threshold now with
  | .error e => (.error e, store, pulled)
  | .ok false => (.ok store.pair, store, pulled)
  | .ok true =>
    let result := store.query accept threshold now (readings pulled)
    (result.1, result.2, pulled + 1)

/-- The sample that a store takes over when it is asked at a clock reading, if it does. -/
def taken {σ : Type} (accept : Judgement σ) (threshold now : Value) (readings : Nat → Except Fault σ)
    (store : Store Value σ) (pulled : Nat) : Option σ :=
  match store.due threshold now, readings pulled with
  | .ok true, .ok sample =>
    match accept sample with
    | .ok true => some sample
    | _ => none
  | _, _ => none

/-- The answer of a meter that is asked at a clock reading, and the meter and the number of its polls after it. -/
def polled (hold now : Value) (readings : Nat → Except Fault (Option Float)) (meter : Meter Value) (count : Nat) :
    Except Fault Float × Meter Value × Nat :=
  match meter.due hold now with
  | .error e => (.error e, meter, count)
  | .ok false => (.ok meter.value, meter, count)
  | .ok true =>
    let result := meter.query hold now (readings count)
    (result.1, result.2, count + 1)

section
variable {σ : Type} {accept : Judgement σ} {threshold now : Value} {readings : Nat → Except Fault σ}
  {store : Store Value σ} {pulled : Nat}

/-- A store that is asked keeps its state unless it takes a sample over. -/
theorem store_of_untaken (untaken : taken accept threshold now readings store pulled = none) :
    (refreshed accept threshold now readings store pulled).2.1 = store := by
  unfold taken at untaken
  unfold refreshed
  cases late : store.due threshold now with
  | error e => rfl
  | ok due =>
    cases due with
    | false => rfl
    | true =>
      rw [late] at untaken
      dsimp only at untaken ⊢
      cases brought : readings pulled with
      | error e => exact Store.query_error e
      | ok sample =>
        rw [brought] at untaken
        apply Store.query_of_refused
        intro accepted
        simp only [accepted] at untaken
        cases untaken

/-- A sample that is taken over is the newer one of the generations that are answered. -/
theorem refreshed_of_taken {sample : σ} (took : taken accept threshold now readings store pulled = some sample) :
    readings pulled = .ok sample ∧ refreshed accept threshold now readings store pulled =
      (.ok (store.current, sample), ⟨store.current, sample, some now⟩, pulled + 1) := by
  unfold taken at took
  split at took
  · next found late brought =>
    split at took
    · next accepted =>
      cases took
      refine ⟨brought, ?_⟩
      unfold refreshed
      rw [late, brought]
      dsimp only
      rw [Store.query_of_accept late accepted]
    · cases took
  · cases took

end

theorem pair_of_refreshed {σ : Type} {accept : Judgement σ} {threshold now : Value}
    {readings : Nat → Except Fault σ} {store : Store Value σ} {pulled : Nat} {generations : σ × σ}
    (answered : (refreshed accept threshold now readings store pulled).1 = .ok generations) :
    generations = (refreshed accept threshold now readings store pulled).2.1.pair := by
  unfold refreshed at answered ⊢
  cases late : store.due threshold now with
  | error e =>
    rw [late] at answered
    cases answered
  | ok due =>
    rw [late] at answered
    cases due with
    | false =>
      cases answered
      rfl
    | true => exact Store.pair_of_query answered

theorem value_of_polled {hold now : Value} {readings : Nat → Except Fault (Option Float)} {meter : Meter Value}
    {count : Nat} {x : Float} (answered : (polled hold now readings meter count).1 = .ok x) :
    x = (polled hold now readings meter count).2.1.value := by
  unfold polled Meter.query at answered ⊢
  cases late : meter.due hold now with
  | error e =>
    rw [late] at answered
    cases answered
  | ok due =>
    rw [late] at answered
    cases due with
    | false =>
      cases answered
      rfl
    | true =>
      dsimp only at answered ⊢
      cases read : readings count with
      | error e =>
        rw [read] at answered
        cases answered
      | ok reading =>
        rw [read] at answered
        cases answered
        rfl

theorem polled_value (hold now : Value) (readings : Nat → Except Fault (Option Float)) (meter : Meter Value) (count : Nat) :
    (polled hold now readings meter count).2.1.value = meter.value ∨
      ∃ reading, (polled hold now readings meter count).2.1.value = Meter.valueAfter meter.value reading := by
  unfold polled Meter.query
  cases meter.due hold now with
  | error e => exact .inl rfl
  | ok due =>
    cases due with
    | false => exact .inl rfl
    | true =>
      cases readings count with
      | error e => exact .inl rfl
      | ok reading => exact .inr ⟨reading, rfl⟩

/-! ### What each query answers and leaves -/

variable {script : Script} {s : Sampler Value} {p : Progress}

@[simp] theorem outcome_now : outcome (now : SamplingM World Value) s p = (.ok p.now, s, p) := rfl

@[simp] theorem outcome_ask {α : Type} (x : ExceptT Fault World α) :
    outcome (ask x) s p = ((x.run.run p).1, s, (x.run.run p).2) := rfl

@[simp] theorem outcome_pullSystem :
    outcome (pullSystem script.source) s p = (script.row p.rows, s, p.useRow) := by
  unfold pullSystem Script.row
  rw [outcome_bind, outcome_ask]
  show andThen (script.rows p.rows, s, p.useRow) _ = _
  cases script.rows p.rows with
  | error e => rfl
  | ok value => exact outcome_ofExcept _

@[simp] theorem outcome_pullProcessors :
    outcome (pullProcessors script.source) s p = (script.matrix s.cores p.matrices, s, p.useMatrix) := by
  unfold pullProcessors Script.matrix
  rw [outcome_bind, outcome_ask]
  show andThen (script.matrices p.matrices, s, p.useMatrix) _ = _
  cases script.matrices p.matrices with
  | error e => rfl
  | ok value =>
    rw [andThen_ok, outcome_bind, outcome_ofExcept]
    show _ = (do let _ ← value.size; Sampler.matrixOf s.cores (← value.entries), s, p.useMatrix)
    cases value.size with
    | error e => rfl
    | ok found =>
      rw [andThen_ok, outcome_bind, outcome_get, andThen_ok]
      -- The notice about a surprising number of rows changes nothing.
      by_cases surprise : (found : Int) ≠ s.cores
      · rw [if_pos surprise, outcome_bind, outcome_note]
        exact outcome_ofExcept _
      · rw [if_neg surprise]
        exact outcome_ofExcept _

/-- A query of the store of all processors together draws on their own rows alone. -/
theorem outcome_refreshSystem (now : Value) :
    outcome (refresh systemStore Sampler.acceptRow s.threshold now Sampler.system (Sampler.querySystem now)
        (pullSystem script.source)) s p =
      let r := refreshed Sampler.acceptRow s.threshold now script.row s.system p.rows
      (r.1, { s with system := r.2.1 }, { p with rows := r.2.2 }) := by
  unfold refreshed
  rw [outcome_refresh]
  cases s.system.due s.threshold now with
  | error e => rfl
  | ok due =>
    cases due with
    | false => rfl
    | true => rw [outcome_pullSystem]; rfl

/-- A query of the store of the processors each draws on their own matrices alone. -/
theorem outcome_refreshProcessors (now : Value) :
    outcome (refresh processorStore Sampler.acceptMatrix s.threshold now Sampler.processors
        (Sampler.queryProcessors now) (pullProcessors script.source)) s p =
      let r := refreshed Sampler.acceptMatrix s.threshold now (script.matrix s.cores) s.processors p.matrices
      (r.1, { s with processors := r.2.1 }, { p with matrices := r.2.2 }) := by
  unfold refreshed
  rw [outcome_refresh]
  cases s.processors.due s.threshold now with
  | error e => rfl
  | ok due =>
    cases due with
    | false => rfl
    | true => rw [outcome_pullProcessors]; rfl

/-- A query of a meter draws on the direct readings alone. -/
theorem outcome_measureDirect (now : Value) {meter : Meter Value} (used : s.meter = some meter)
    (measured : script.percents.isSome) :
    outcome (Channel.measure s.hold now meter (fun reading => Sampler.queryMeter now reading meter)
        (ask script.source.directReading)) s p =
      let r := polled s.hold now script.percent meter p.percents
      (r.1, { s with meter := some r.2.1 }, { p with percents := r.2.2 }) := by
  obtain ⟨percents, given⟩ := Option.isSome_iff_exists.mp measured
  have poll : outcome (ask script.source.directReading) s p = (percents p.percents, s, p.usePercent) := by
    unfold Source.directReading Script.source
    rw [given]
    rfl
  have kept : { s with meter := some meter } = s := by rw [← used]
  unfold polled Script.percent
  rw [outcome_measure, poll, given]
  cases meter.due s.hold now with
  | error e => exact congrArg (Except.error e, ·, p) kept.symm
  | ok due =>
    cases due with
    | false => exact congrArg (Except.ok meter.value, ·, p) kept.symm
    | true => cases read : percents p.percents <;> simp only [read] <;> rfl

theorem outcome_systemTickLoad :
    outcome (Sampling.systemTickLoad script.source) s p =
      let r := refreshed Sampler.acceptRow s.threshold p.now script.row s.system p.rows
      (r.1.bind fun pair => pair.1.load pair.2, { s with system := r.2.1 }, { p with rows := r.2.2 }) := by
  unfold Sampling.systemTickLoad
  rw [outcome_bind, outcome_now, andThen_ok, outcome_bind, outcome_get, andThen_ok, outcome_bind, outcome_refreshSystem]
  dsimp only
  cases (refreshed Sampler.acceptRow s.threshold p.now script.row s.system p.rows).1 with
  | error e => rfl
  | ok pair => exact outcome_ofExcept _

theorem outcome_processorLoads :
    outcome (Sampling.processorLoads script.source) s p =
      let r := refreshed Sampler.acceptMatrix s.threshold p.now (script.matrix s.cores) s.processors
        p.matrices
      (r.1.bind Sampler.loads, { s with processors := r.2.1 }, { p with matrices := r.2.2 }) := by
  unfold Sampling.processorLoads
  rw [outcome_bind, outcome_now, andThen_ok, outcome_bind, outcome_get, andThen_ok, outcome_bind,
    outcome_refreshProcessors]
  dsimp only
  cases (refreshed Sampler.acceptMatrix s.threshold p.now (script.matrix s.cores) s.processors
    p.matrices).1 with
  | error e => rfl
  | ok pair => exact outcome_ofExcept _

theorem outcome_systemLoad_of_ticks (unused : s.meter = none) :
    outcome (Sampling.systemLoad script.source) s p = outcome (Sampling.systemTickLoad script.source) s p := by
  unfold Sampling.systemLoad
  rw [outcome_bind, outcome_get, andThen_ok, unused]

theorem outcome_systemLoad_of_meter {meter : Meter Value} (used : s.meter = some meter)
    (measured : script.percents.isSome) :
    outcome (Sampling.systemLoad script.source) s p =
      let r := polled s.hold p.now script.percent meter p.percents
      (r.1, { s with meter := some r.2.1 }, { p with percents := r.2.2 }) := by
  unfold Sampling.systemLoad
  rw [outcome_bind, outcome_get, andThen_ok, used]
  show outcome (now >>= fun now => get >>= fun s => Channel.measure s.hold now meter _ _) s p = _
  rw [outcome_bind, outcome_now, andThen_ok, outcome_bind, outcome_get, andThen_ok,
    outcome_measureDirect p.now used measured]

/-- Load averages are the source's alone, and so is the time since the system started. -/
theorem outcome_loadAverages (count : Value) :
    outcome (loadAverages script.source count) s p =
      ((Source.isAverageCount count).bind fun asked =>
        if asked then script.averages count else .error .averageCount, s, p) := by
  unfold loadAverages
  rw [outcome_bind, outcome_ofExcept]
  cases Source.isAverageCount count with
  | error e => rfl
  | ok asked => cases asked <;> rfl

namespace Stage
variable {a : Stage} {now : Value}

theorem answer_systemTicks :
    a.answer script ⟨.systemTicks, now⟩ =
      ((script.row a.progress.rows).map .ticks, ⟨a.sampler, { a.progress with rows := a.progress.rows + 1, now }⟩) := by
  unfold answer Query.program
  rw [outcome_map, outcome_pullSystem]
  rfl

theorem answer_processorTicks :
    a.answer script ⟨.processorTicks, now⟩ =
      ((script.matrix a.sampler.cores a.progress.matrices).map .matrix,
        ⟨a.sampler, { a.progress with matrices := a.progress.matrices + 1, now }⟩) := by
  unfold answer Query.program
  rw [outcome_map, outcome_pullProcessors]
  rfl

theorem answer_systemTickLoad :
    a.answer script ⟨.systemTickLoad, now⟩ =
      let r := refreshed Sampler.acceptRow a.sampler.threshold now script.row a.sampler.system a.progress.rows
      ((r.1.bind fun pair => pair.1.load pair.2).map .load,
        ⟨{ a.sampler with system := r.2.1 }, { a.progress with rows := r.2.2, now }⟩) := by
  unfold answer Query.program
  rw [outcome_map, outcome_systemTickLoad]

theorem answer_processorLoads :
    a.answer script ⟨.processorLoads, now⟩ =
      let r := refreshed Sampler.acceptMatrix a.sampler.threshold now (script.matrix a.sampler.cores)
        a.sampler.processors a.progress.matrices
      ((r.1.bind Sampler.loads).map .loads,
        ⟨{ a.sampler with processors := r.2.1 }, { a.progress with matrices := r.2.2, now }⟩) := by
  unfold answer Query.program
  rw [outcome_map, outcome_processorLoads]

theorem answer_systemLoad_of_ticks (unused : a.sampler.meter = none) :
    a.answer script ⟨.systemLoad, now⟩ = a.answer script ⟨.systemTickLoad, now⟩ := by
  unfold answer Query.program
  rw [outcome_map, outcome_map, outcome_systemLoad_of_ticks unused]

theorem answer_systemLoad_of_meter {meter : Meter Value} (used : a.sampler.meter = some meter)
    (measured : script.percents.isSome) :
    a.answer script ⟨.systemLoad, now⟩ =
      let r := polled a.sampler.hold now script.percent meter a.progress.percents
      (r.1.map .load, ⟨{ a.sampler with meter := some r.2.1 }, { a.progress with percents := r.2.2, now }⟩) := by
  unfold answer Query.program
  rw [outcome_map, outcome_systemLoad_of_meter used measured]

theorem answer_averages (count : Value) :
    a.answer script ⟨.averages count, now⟩ =
      (((Source.isAverageCount count).bind fun asked =>
        if asked then script.averages count else .error .averageCount).map .figures,
        ⟨a.sampler, { a.progress with now }⟩) := by
  unfold answer Query.program
  rw [outcome_map, outcome_loadAverages]

theorem answer_uptime :
    a.answer script ⟨.uptime, now⟩ = (script.uptime.map .figure, ⟨a.sampler, { a.progress with now }⟩) := by
  unfold answer Query.program
  rw [outcome_map, outcome_ask]
  rfl

end Stage

/-! ### What no query changes -/

section
variable {usesDirect : Bool} {a b : Stage}

/-- A sampler has a meter exactly if it uses direct readings, and then its source has some. -/
structure Routed (usesDirect : Bool) (script : Script) (a : Stage) : Prop where
  metered : a.sampler.meter.isSome = usesDirect
  measured : usesDirect = true → script.percents.isSome

/-- The system's load comes from the ticks of a sampler that has no meter, and from the meter of one that has. -/
theorem answer_systemLoad_cases (routed : Routed usesDirect script a) (now : Value) :
    (usesDirect = false ∧ a.sampler.meter = none ∧
      a.answer script ⟨.systemLoad, now⟩ = a.answer script ⟨.systemTickLoad, now⟩) ∨
    (usesDirect = true ∧ ∃ meter, a.sampler.meter = some meter ∧
      a.answer script ⟨.systemLoad, now⟩ =
        let r := polled a.sampler.hold now script.percent meter a.progress.percents
        (r.1.map .load, ⟨{ a.sampler with meter := some r.2.1 }, { a.progress with percents := r.2.2, now }⟩)) := by
  have metered := routed.metered
  cases used : a.sampler.meter with
  | none =>
    rw [used] at metered
    exact .inl ⟨metered.symm, rfl, Stage.answer_systemLoad_of_ticks used⟩
  | some meter =>
    rw [used] at metered
    have direct : usesDirect = true := metered.symm
    exact .inr ⟨direct, meter, rfl, Stage.answer_systemLoad_of_meter used (routed.measured direct)⟩

/-- What no query changes. -/
structure Keeps (a b : Stage) : Prop where
  threshold : b.sampler.threshold = a.sampler.threshold
  hold : b.sampler.hold = a.sampler.hold
  cores : b.sampler.cores = a.sampler.cores
  metered : b.sampler.meter.isSome = a.sampler.meter.isSome

theorem keeps_answer (routed : Routed usesDirect script a) (call : Call) : Keeps a (a.answer script call).2 := by
  obtain ⟨query, now⟩ := call
  cases query with
  | systemTicks => rw [Stage.answer_systemTicks]; exact ⟨rfl, rfl, rfl, rfl⟩
  | processorTicks => rw [Stage.answer_processorTicks]; exact ⟨rfl, rfl, rfl, rfl⟩
  | systemTickLoad => rw [Stage.answer_systemTickLoad]; exact ⟨rfl, rfl, rfl, rfl⟩
  | processorLoads => rw [Stage.answer_processorLoads]; exact ⟨rfl, rfl, rfl, rfl⟩
  | averages count => rw [Stage.answer_averages]; exact ⟨rfl, rfl, rfl, rfl⟩
  | uptime => rw [Stage.answer_uptime]; exact ⟨rfl, rfl, rfl, rfl⟩
  | systemLoad =>
    rcases answer_systemLoad_cases routed now with ⟨_, _, same⟩ | ⟨_, meter, used, same⟩
    · rw [same, Stage.answer_systemTickLoad]
      exact ⟨rfl, rfl, rfl, rfl⟩
    · rw [same]
      exact ⟨rfl, rfl, rfl, by rw [used]; rfl⟩

theorem routed_answer (routed : Routed usesDirect script a) (call : Call) :
    Routed usesDirect script (a.answer script call).2 :=
  ⟨(keeps_answer routed call).metered.trans routed.metered, routed.measured⟩

/-- What every query keeps, a run keeps. -/
theorem run_induction {P : Stage → Prop} (step : ∀ b : Stage, ∀ call : Call, P b → P (b.answer script call).2)
    (calls : List Call) (first : P a) : P (a.run script calls).2 := by
  induction calls generalizing a with
  | nil => exact first
  | cons call calls ih => exact ih (step a call first)

end

/-! ### New samplers -/

namespace Script

/-- Whether a sampler that is set up like that uses direct readings. -/
def usesDirect (script : Script) (setup : Setup) : Bool := setup.useDirect && script.percents.isSome

def firstMeter (script : Script) (setup : Setup) : Except Fault (Option (Meter Value)) :=
  if script.usesDirect setup then (script.percent 0).map fun reading => some (.start setup.now reading) else .ok none

/-- A new sampler that was given its first samples. -/
def firstStage (script : Script) (setup : Setup) (identity : Identity) (row : Snapshot) (rows : List Snapshot)
    (meter : Option (Meter Value)) : Stage :=
  let blank := Sampler.blank script.cores identity setup.threshold setup.hold
  { sampler := { blank with
      system := (blank.system.seed Sampler.acceptRow setup.now row).2
      processors := (blank.processors.seed Sampler.acceptMatrix setup.now rows).2
      meter }
    progress := ⟨1, 1, if meter.isSome then 1 else 0, setup.now⟩ }

section
variable {script : Script} {setup : Setup} {identity : Identity} {row : Snapshot} {rows : List Snapshot}
  {meter : Option (Meter Value)}

theorem system_firstStage : (script.firstStage setup identity row rows meter).sampler.system =
    if row.isNonzero then ⟨row, row, some setup.now⟩ else .start .zero := Store.store_of_seed rfl

theorem processors_firstStage : (script.firstStage setup identity row rows meter).sampler.processors =
    if Sampler.isUsable rows then ⟨rows, rows, some setup.now⟩
    else .start (List.replicate script.cores.toNat .zero) := Store.store_of_seed rfl

end

/-- What setting up a sampler gives. -/
def opened (script : Script) (setup : Setup) : Except Fault Stage := do
  let identity ← script.identity
  let row ← script.row 0
  let rows ← script.matrix script.cores 0
  let meter ← script.firstMeter setup
  return script.firstStage setup identity row rows meter

end Script

/-- The stage that an operation leaves if it succeeds. -/
private def stageOf (left : Except Fault Unit × Sampler Value × Progress) : Except Fault Stage :=
  left.1.map fun _ => ⟨left.2.1, left.2.2⟩

private theorem run_of_lift (x : World (Except Fault Unit × Sampler Value)) :
    ((do
      let (result, s) ← ExceptT.lift x
      match result with
      | .ok () => return s
      | .error e => throw e : ExceptT Fault World (Sampler Value)).run.run p) =
      ((x.run p).1.1.map fun _ => (x.run p).1.2, (x.run p).2) := by
  rcases left : x.run p with ⟨⟨e | done, s⟩, rest⟩
  · simp only [ExceptT.run_bind, ExceptT.run_lift, StateT.run_bind, StateT.run_map, left]
    rfl
  · simp only [ExceptT.run_bind, ExceptT.run_lift, StateT.run_bind, StateT.run_map, left]
    rfl

private theorem run_clock {α : Type} (f : Value → ExceptT Fault World α) :
    ((Clock.milliseconds : ExceptT Fault World Value) >>= f).run.run p = (f p.now).run.run p := rfl

private theorem begin_eq_prime (setup : Setup) {identity : Identity} (described : script.identity = .ok identity) :
    begin script setup = stageOf (outcome (prime script.source setup.useDirect setup.now)
      (.blank script.cores identity setup.threshold setup.hold) ⟨0, 0, 0, setup.now⟩) := by
  have source : script.source.identity = pure identity := congrArg (fun r => ExceptT.mk (pure r)) described
  unfold begin start
  rw [source, pure_bind, run_clock]
  have left := run_of_lift (p := ⟨0, 0, 0, setup.now⟩) ((prime script.source setup.useDirect setup.now).run.run
    (.blank script.cores identity setup.threshold setup.hold))
  refine (congrArg (fun result => result.1.map fun sampler => Stage.mk sampler result.2) left).trans ?_
  unfold stageOf outcome
  cases (((prime script.source setup.useDirect setup.now).run.run
    (.blank script.cores identity setup.threshold setup.hold)).run ⟨0, 0, 0, setup.now⟩).1.1 <;> rfl

private theorem seedSystem_eq (now : Value) (row : Snapshot) :
    s.seedSystem now row = (.ok row.isNonzero, { s with system := (s.system.seed Sampler.acceptRow now row).2 }) := by
  unfold Sampler.seedSystem Store.seed Sampler.acceptRow
  cases row.isNonzero <;> rfl

private theorem seedProcessors_eq (now : Value) (rows : List Snapshot) :
    s.seedProcessors now rows =
      (.ok (Sampler.isUsable rows), { s with processors := (s.processors.seed Sampler.acceptMatrix now rows).2 }) := by
  unfold Sampler.seedProcessors Store.seed Sampler.acceptMatrix
  cases Sampler.isUsable rows <;> rfl

private theorem outcome_startMeter (now : Value) (poll : SamplingM World Value) :
    outcome (startMeter now poll) s p =
      andThen (andThen (outcome poll s p) fun v s p => (Meter.percentOf v, s, p)) fun reading s p =>
        (.ok (.start now reading), s, p) := by
  unfold startMeter
  rw [outcome_bind, outcome_reading]
  rfl

/-- A sampler takes its first samples, or else its first fault is the source's first one. -/
theorem begin_eq_opened (setup : Setup) : begin script setup = script.opened setup := by
  unfold Script.opened
  cases described : script.identity with
  | error e =>
    have source : script.source.identity = ExceptT.mk (pure (.error e)) := by
      rw [← described]
      rfl
    unfold begin start
    rw [source]
    rfl
  | ok identity =>
    rw [begin_eq_prime setup described]
    unfold prime
    rw [outcome_bind, outcome_pullSystem]
    dsimp only
    cases script.row 0 with
    | error e => rfl
    | ok row =>
      rw [andThen_ok, outcome_bind, outcome_seed, seedSystem_eq, andThen_ok, outcome_bind, outcome_pullProcessors]
      dsimp only [Sampler.blank, Progress.useRow]
      cases script.matrix script.cores 0 with
      | error e => rfl
      | ok rows =>
        rw [andThen_ok, outcome_bind, outcome_seed, seedProcessors_eq, andThen_ok]
        unfold Script.firstMeter Script.usesDirect Script.percent
        have direct : script.source.direct = script.percents.map (next Progress.percents Progress.usePercent) := rfl
        rw [direct]
        cases script.percents with
        | none =>
          rw [Option.isSome_none, Bool.and_false]
          rfl
        | some percents =>
          rw [Option.isSome_some, Bool.and_true, Option.map_some]
          dsimp only
          cases setup.useDirect with
          | false => rfl
          | true =>
            simp only [↓reduceIte, outcome_bind, outcome_startMeter, outcome_ask]
            show stageOf (andThen (andThen (andThen (percents 0, _, _) _) _) _) = _
            cases percents 0 with
            | error e => rfl
            | ok value =>
              rw [andThen_ok]
              show _ = ((Meter.percentOf value).map fun reading => some (Meter.start setup.now reading)).bind _
              cases Meter.percentOf value <;> rfl

theorem isSome_firstMeter {setup : Setup} {meter : Option (Meter Value)} (first : script.firstMeter setup = .ok meter) :
    meter.isSome = script.usesDirect setup := by
  unfold Script.firstMeter at first
  cases direct : script.usesDirect setup with
  | false =>
    rw [direct] at first
    cases first
    rfl
  | true =>
    rw [direct, if_pos rfl] at first
    cases read : script.percent 0 with
    | error e =>
      rw [read] at first
      cases first
    | ok reading =>
      rw [read] at first
      cases first
      rfl

/-- A sampler can be set up exactly if the source brings each of the first readings that it is asked for. -/
theorem begin_eq_ok_iff {setup : Setup} {stage : Stage} :
    begin script setup = .ok stage ↔ ∃ identity row rows meter, script.identity = .ok identity ∧ script.row 0 = .ok row ∧
      script.matrix script.cores 0 = .ok rows ∧ script.firstMeter setup = .ok meter ∧
      stage = script.firstStage setup identity row rows meter := by
  rw [begin_eq_opened]
  unfold Script.opened
  constructor
  · intro ready
    cases described : script.identity with
    | error e => rw [described] at ready; cases ready
    | ok identity =>
      cases first : script.row 0 with
      | error e => rw [described, first] at ready; cases ready
      | ok row =>
        cases second : script.matrix script.cores 0 with
        | error e => rw [described, first, second] at ready; cases ready
        | ok rows =>
          cases third : script.firstMeter setup with
          | error e => rw [described, first, second, third] at ready; cases ready
          | ok meter =>
            rw [described, first, second, third] at ready
            cases ready
            exact ⟨identity, row, rows, meter, rfl, rfl, rfl, rfl, rfl⟩
  · rintro ⟨identity, row, rows, meter, described, first, second, third, rfl⟩
    rw [described, first, second, third]
    rfl

theorem routed_begin {setup : Setup} {a : Stage} (ready : begin script setup = .ok a) :
    Routed (script.usesDirect setup) script a := by
  obtain ⟨identity, row, rows, meter, _, _, _, third, rfl⟩ := begin_eq_ok_iff.mp ready
  refine ⟨isSome_firstMeter third, ?_⟩
  intro direct
  unfold Script.usesDirect at direct
  exact (Bool.and_eq_true_iff.mp direct).2

end CpuLoad.Scripted
