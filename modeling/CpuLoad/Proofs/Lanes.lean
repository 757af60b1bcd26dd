import CpuLoad.Proofs.Scripted

/-!
The queries of a sampler run in three lanes: one over the store of all processors together, one over the store of the
processors each, and one over the meter. The load of all processors together belongs to the meter's lane if the sampler
has a meter and else to the first one. A query of one lane leaves what the other lanes hold (`holding_of_other`), and
what it answers and leaves in its own lane depends on that lane alone (`answer_of_alike`). So two runs that are the same
on a lane are not told apart there, whatever happens in the other lanes (`run_of_alike`).
-/
namespace CpuLoad.Lanes
open CpuLoad.Scripted

inductive Lane
  | system
  | processors
  | direct
  deriving DecidableEq

/-- The lane of a query to a sampler, by whether it uses direct readings. -/
def laneOf (usesDirect : Bool) : Query → Option Lane
  | .systemLoad => some (if usesDirect then .direct else .system)
  | .systemTickLoad | .systemTicks => some .system
  | .processorLoads | .processorTicks => some .processors
  | .averages _ | .uptime => none

/-- The lane whose figure a query asks for. -/
def figureOf (usesDirect : Bool) : Query → Option Lane
  | .systemLoad => some (if usesDirect then .direct else .system)
  | .systemTickLoad => some .system
  | .processorLoads => some .processors
  | _ => none

/-- Whether a query shows ticks as the source has them. -/
def isRaw : Query → Bool
  | .systemTicks | .processorTicks => true
  | _ => false

/-- The figure of a lane that a sampler has, as an answer. -/
def report (left : Sampler Value) : Lane → Except Fault Answer
  | .system => (left.system.previous.load left.system.current).map .load
  | .processors => (Sampler.loads left.processors.pair).map .loads
  | .direct => .ok (.load ((left.meter.map Meter.value).getD 0.0))

/-- What a lane holds: its store or its meter, and the number of its pulls. -/
inductive Holding
  | rows (store : Store Value Snapshot) (pulled : Nat)
  | matrices (store : Store Value (List Snapshot)) (pulled : Nat)
  | percents (meter : Option (Meter Value)) (polled : Nat)

def holding : Lane → Stage → Holding
  | .system, a => .rows a.sampler.system a.progress.rows
  | .processors, a => .matrices a.sampler.processors a.progress.matrices
  | .direct, a => .percents a.sampler.meter a.progress.percents

/-- Whether two sources bring the same in a lane. -/
def SameReadings : Lane → Script → Script → Prop
  | .system, S, T => S.rows = T.rows
  | .processors, S, T => S.cores = T.cores ∧ S.matrices = T.matrices
  | .direct, S, T => S.percents = T.percents

/-! ### One query -/

/-- Two samplers that cannot be told apart in a lane. -/
structure Alike (usesDirect : Bool) (lane : Lane) (S : Script) (a : Stage) (T : Script) (b : Stage) : Prop where
  left : Routed usesDirect S a
  right : Routed usesDirect T b
  readings : SameReadings lane S T
  threshold : a.sampler.threshold = b.sampler.threshold
  hold : a.sampler.hold = b.sampler.hold
  cores : lane = .processors → a.sampler.cores = b.sampler.cores
  holding : holding lane a = holding lane b

variable {usesDirect : Bool} {lane : Lane} {S T : Script} {a b : Stage}

/-- A query leaves what the other lanes hold. -/
theorem holding_of_other (routed : Routed usesDirect S a) {call : Call} (other : laneOf usesDirect call.query ≠ some lane) :
    holding lane (a.answer S call).2 = holding lane a := by
  obtain ⟨query, now⟩ := call
  cases query with
  | systemTicks =>
    rw [Stage.answer_systemTicks]
    cases lane with
    | system => exact absurd rfl other
    | processors => rfl
    | direct => rfl
  | processorTicks =>
    rw [Stage.answer_processorTicks]
    cases lane with
    | system => rfl
    | processors => exact absurd rfl other
    | direct => rfl
  | systemTickLoad =>
    rw [Stage.answer_systemTickLoad]
    cases lane with
    | system => exact absurd rfl other
    | processors => rfl
    | direct => rfl
  | processorLoads =>
    rw [Stage.answer_processorLoads]
    cases lane with
    | system => rfl
    | processors => exact absurd rfl other
    | direct => rfl
  | averages count =>
    rw [Stage.answer_averages]
    cases lane <;> rfl
  | uptime =>
    rw [Stage.answer_uptime]
    cases lane <;> rfl
  | systemLoad =>
    rcases answer_systemLoad_cases routed now with ⟨rfl, _, same⟩ | ⟨rfl, meter, _, same⟩
    · rw [same, Stage.answer_systemTickLoad]
      cases lane with
      | system => exact absurd rfl other
      | processors => rfl
      | direct => rfl
    · rw [same]
      cases lane with
      | system => rfl
      | processors => rfl
      | direct => exact absurd rfl other

/-! What a query does is told by the lane whose figure it asks for, if it asks for one. -/

theorem laneOf_of_figure {query : Query} (asked : figureOf usesDirect query = some lane) :
    laneOf usesDirect query = some lane := by
  cases query with
  | systemTicks => cases asked
  | processorTicks => cases asked
  | averages count => cases asked
  | uptime => cases asked
  | _ => exact asked

theorem sampler_of_no_figure {call : Call} (asked : figureOf usesDirect call.query = none) :
    (a.answer S call).2.sampler = a.sampler := by
  obtain ⟨query, now⟩ := call
  cases query with
  | systemTicks => rw [Stage.answer_systemTicks]
  | processorTicks => rw [Stage.answer_processorTicks]
  | averages count => rw [Stage.answer_averages]
  | uptime => rw [Stage.answer_uptime]
  | _ => cases asked

theorem answer_of_system_figure (routed : Routed usesDirect S a) {call : Call}
    (asked : figureOf usesDirect call.query = some .system) :
    a.answer S call = a.answer S ⟨.systemTickLoad, call.now⟩ := by
  obtain ⟨query, now⟩ := call
  cases query with
  | systemTickLoad => rfl
  | systemLoad =>
    rcases answer_systemLoad_cases routed now with ⟨_, _, same⟩ | ⟨rfl, _⟩
    · exact same
    · cases asked
  | _ => cases asked

theorem answer_of_processor_figures {call : Call} (asked : figureOf usesDirect call.query = some .processors) :
    a.answer S call = a.answer S ⟨.processorLoads, call.now⟩ := by
  obtain ⟨query, now⟩ := call
  cases query with
  | processorLoads => rfl
  | systemLoad => cases usesDirect <;> cases asked
  | _ => cases asked

theorem answer_of_direct_figure (routed : Routed usesDirect S a) {call : Call}
    (asked : figureOf usesDirect call.query = some .direct) :
    usesDirect = true ∧ ∃ meter, a.sampler.meter = some meter ∧ a.answer S call =
      let r := polled a.sampler.hold call.now S.percent meter a.progress.percents
      (r.1.map .load, ⟨{ a.sampler with meter := some r.2.1 }, { a.progress with percents := r.2.2, now := call.now }⟩) := by
  obtain ⟨query, now⟩ := call
  cases query with
  | systemLoad =>
    rcases answer_systemLoad_cases routed now with ⟨rfl, _⟩ | direct
    · cases asked
    · exact direct
  | _ => cases asked

section
variable {now : Value}

private theorem row_of_alike (alike : Alike usesDirect .system S a T b) : S.row = T.row := by
  have readings : S.rows = T.rows := alike.readings
  unfold Script.row
  rw [readings]

private theorem matrix_of_alike (alike : Alike usesDirect .processors S a T b) :
    S.matrix a.sampler.cores = T.matrix b.sampler.cores := by
  have readings : S.cores = T.cores ∧ S.matrices = T.matrices := alike.readings
  unfold Script.matrix
  rw [readings.2, alike.cores rfl]

private theorem percent_of_alike (alike : Alike usesDirect .direct S a T b) : S.percent = T.percent := by
  have readings : S.percents = T.percents := alike.readings
  unfold Script.percent
  rw [readings]

private theorem systemTickLoad_of_alike (alike : Alike usesDirect .system S a T b) :
    (a.answer S ⟨.systemTickLoad, now⟩).1 = (b.answer T ⟨.systemTickLoad, now⟩).1 ∧
      holding .system (a.answer S ⟨.systemTickLoad, now⟩).2 = holding .system (b.answer T ⟨.systemTickLoad, now⟩).2 := by
  obtain ⟨store, pulled⟩ := Holding.rows.inj alike.holding
  rw [Stage.answer_systemTickLoad, Stage.answer_systemTickLoad, row_of_alike alike, alike.threshold, store, pulled]
  exact ⟨rfl, rfl⟩

private theorem systemTicks_of_alike (alike : Alike usesDirect .system S a T b) :
    (a.answer S ⟨.systemTicks, now⟩).1 = (b.answer T ⟨.systemTicks, now⟩).1 ∧
      holding .system (a.answer S ⟨.systemTicks, now⟩).2 = holding .system (b.answer T ⟨.systemTicks, now⟩).2 := by
  obtain ⟨store, pulled⟩ := Holding.rows.inj alike.holding
  rw [Stage.answer_systemTicks, Stage.answer_systemTicks, row_of_alike alike, pulled]
  exact ⟨rfl, congrArg (Holding.rows · _) store⟩

private theorem processorLoads_of_alike (alike : Alike usesDirect .processors S a T b) :
    (a.answer S ⟨.processorLoads, now⟩).1 = (b.answer T ⟨.processorLoads, now⟩).1 ∧
      holding .processors (a.answer S ⟨.processorLoads, now⟩).2 =
        holding .processors (b.answer T ⟨.processorLoads, now⟩).2 := by
  obtain ⟨store, pulled⟩ := Holding.matrices.inj alike.holding
  rw [Stage.answer_processorLoads, Stage.answer_processorLoads, matrix_of_alike alike, alike.threshold, store, pulled]
  exact ⟨rfl, rfl⟩

private theorem processorTicks_of_alike (alike : Alike usesDirect .processors S a T b) :
    (a.answer S ⟨.processorTicks, now⟩).1 = (b.answer T ⟨.processorTicks, now⟩).1 ∧
      holding .processors (a.answer S ⟨.processorTicks, now⟩).2 =
        holding .processors (b.answer T ⟨.processorTicks, now⟩).2 := by
  obtain ⟨store, pulled⟩ := Holding.matrices.inj alike.holding
  rw [Stage.answer_processorTicks, Stage.answer_processorTicks, matrix_of_alike alike, pulled]
  exact ⟨rfl, congrArg (Holding.matrices · _) store⟩

private theorem directLoad_of_alike (alike : Alike true .direct S a T b) :
    (a.answer S ⟨.systemLoad, now⟩).1 = (b.answer T ⟨.systemLoad, now⟩).1 ∧
      holding .direct (a.answer S ⟨.systemLoad, now⟩).2 = holding .direct (b.answer T ⟨.systemLoad, now⟩).2 := by
  obtain ⟨same, polled⟩ := Holding.percents.inj alike.holding
  obtain ⟨meter, used⟩ := Option.isSome_iff_exists.mp alike.right.metered
  rw [Stage.answer_systemLoad_of_meter (same.trans used) (alike.left.measured rfl),
    Stage.answer_systemLoad_of_meter used (alike.right.measured rfl), percent_of_alike alike, alike.hold, polled]
  exact ⟨rfl, rfl⟩

end

/-- What a query answers and leaves in its own lane depends on that lane alone. -/
theorem answer_of_alike (alike : Alike usesDirect lane S a T b) {call : Call} (on : laneOf usesDirect call.query = some lane) :
    (a.answer S call).1 = (b.answer T call).1 ∧ holding lane (a.answer S call).2 = holding lane (b.answer T call).2 := by
  obtain ⟨query, now⟩ := call
  cases query with
  | systemTicks => cases on; exact systemTicks_of_alike alike
  | processorTicks => cases on; exact processorTicks_of_alike alike
  | systemTickLoad => cases on; exact systemTickLoad_of_alike alike
  | processorLoads => cases on; exact processorLoads_of_alike alike
  | averages count => cases on
  | uptime => cases on
  | systemLoad =>
    cases usesDirect with
    | true => cases on; exact directLoad_of_alike alike
    | false =>
      cases on
      have left : a.sampler.meter = none := by simpa using alike.left.metered
      have right : b.sampler.meter = none := by simpa using alike.right.metered
      rw [Stage.answer_systemLoad_of_ticks left, Stage.answer_systemLoad_of_ticks right]
      exact systemTickLoad_of_alike alike

/-- Two samplers that are alike in a lane are so after the same query of that lane. -/
theorem alike_answer (alike : Alike usesDirect lane S a T b) {call : Call}
    (on : laneOf usesDirect call.query = some lane) :
    Alike usesDirect lane S (a.answer S call).2 T (b.answer T call).2 := by
  have left := keeps_answer alike.left call
  have right := keeps_answer alike.right call
  refine ⟨routed_answer alike.left call, routed_answer alike.right call, alike.readings, ?_, ?_, ?_,
    (answer_of_alike alike on).2⟩
  · rw [left.threshold, right.threshold, alike.threshold]
  · rw [left.hold, right.hold, alike.hold]
  · intro processors
    rw [left.cores, right.cores, alike.cores processors]

/-- Two samplers that are alike in a lane are so after a query of another lane to one of them. -/
theorem alike_of_other (alike : Alike usesDirect lane S a T b) {call : Call}
    (other : laneOf usesDirect call.query ≠ some lane) : Alike usesDirect lane S (a.answer S call).2 T b := by
  have left := keeps_answer alike.left call
  refine ⟨routed_answer alike.left call, alike.right, alike.readings, ?_, ?_, ?_, ?_⟩
  · rw [left.threshold, alike.threshold]
  · rw [left.hold, alike.hold]
  · intro processors
    rw [left.cores, alike.cores processors]
  · rw [holding_of_other alike.left other, alike.holding]

/-! ### Runs -/

def isOn (usesDirect : Bool) (lane : Lane) (call : Call) : Bool := laneOf usesDirect call.query = some lane

def answersOn (usesDirect : Bool) (lane : Lane) (log : List (Call × Except Fault Answer)) : List (Except Fault Answer) :=
  (log.filter fun entry => isOn usesDirect lane entry.1).map Prod.snd

private theorem answersOn_cons (call : Call) (answer : Except Fault Answer) (log : List (Call × Except Fault Answer)) :
    answersOn usesDirect lane ((call, answer) :: log) =
      if isOn usesDirect lane call then answer :: answersOn usesDirect lane log else answersOn usesDirect lane log := by
  unfold answersOn
  rw [List.filter_cons]
  split <;> rfl

/-- A run gives in a lane what the run of that lane's calls alone gives, also on a sampler that only looks the same in
    the lane. -/
theorem run_filter (calls : List Call) (alike : Alike usesDirect lane S a T b) :
    answersOn usesDirect lane (a.run S calls).1 = (b.run T (calls.filter (isOn usesDirect lane))).1.map Prod.snd ∧
      Alike usesDirect lane S (a.run S calls).2 T (b.run T (calls.filter (isOn usesDirect lane))).2 := by
  induction calls generalizing a b with
  | nil => exact ⟨rfl, alike⟩
  | cons call calls ih =>
    have first : (a.run S (call :: calls)).1 = (call, (a.answer S call).1) :: ((a.answer S call).2.run S calls).1 := rfl
    rw [first, answersOn_cons, List.filter_cons]
    by_cases on : isOn usesDirect lane call
    · have own : laneOf usesDirect call.query = some lane := of_decide_eq_true on
      obtain ⟨answers, left⟩ := ih (alike_answer alike own)
      rw [if_pos on, if_pos on, answers, (answer_of_alike alike own).1]
      exact ⟨rfl, left⟩
    · have other : laneOf usesDirect call.query ≠ some lane := fun contra => on (decide_eq_true contra)
      obtain ⟨answers, left⟩ := ih (alike_of_other alike other)
      rw [if_neg on, if_neg on]
      exact ⟨answers, left⟩

/-- A sampler that is alike to another one is alike to itself. -/
private theorem Alike.refl_right (alike : Alike usesDirect lane S a T b) : Alike usesDirect lane T b T b :=
  ⟨alike.right, alike.right, by cases lane <;> simp [SameReadings], rfl, rfl, fun _ => rfl, rfl⟩

/-- Two runs that are the same on a lane give the same answers there and leave it the same. -/
theorem run_of_alike (alike : Alike usesDirect lane S a T b) {xs ys : List Call}
    (same : xs.filter (isOn usesDirect lane) = ys.filter (isOn usesDirect lane)) :
    answersOn usesDirect lane (a.run S xs).1 = answersOn usesDirect lane (b.run T ys).1 ∧
      holding lane (a.run S xs).2 = holding lane (b.run T ys).2 := by
  obtain ⟨left, leftAlike⟩ := run_filter xs alike
  obtain ⟨right, rightAlike⟩ := run_filter ys alike.refl_right
  rw [left, right, leftAlike.holding, rightAlike.holding, same]
  exact ⟨rfl, rfl⟩

/-- A run without any call of a lane leaves what the lane holds. -/
theorem holding_run_of_other (routed : Routed usesDirect S a) {calls : List Call}
    (other : ∀ call ∈ calls, laneOf usesDirect call.query ≠ some lane) :
    holding lane (a.run S calls).2 = holding lane a := by
  induction calls generalizing a with
  | nil => rfl
  | cons call calls ih =>
    have first : holding lane (a.answer S call).2 = holding lane a :=
      holding_of_other routed (other call (List.mem_cons_self ..))
    have rest := ih (routed_answer routed call) fun call' member => other call' (List.mem_cons_of_mem _ member)
    exact rest.trans first

/-- Raw queries leave the sampler as it is. -/
theorem sampler_of_raw {call : Call} (raw : isRaw call.query) : (a.answer S call).2.sampler = a.sampler := by
  have none : figureOf false call.query = none := by
    obtain ⟨query, now⟩ := call
    cases query with
    | systemTicks => rfl
    | processorTicks => rfl
    | _ => cases raw
  exact sampler_of_no_figure none

/-! ### New samplers -/

variable {setup : Setup}

/-- Two samplers that are set up alike over sources that bring the same in a lane are alike there. -/
theorem alike_begin (left : begin S setup = .ok a) (right : begin T setup = .ok b) (readings : SameReadings lane S T)
    (measured : S.percents.isSome = T.percents.isSome) : Alike (S.usesDirect setup) lane S a T b := by
  have same : S.usesDirect setup = T.usesDirect setup := by unfold Script.usesDirect; rw [measured]
  have leftRouted := routed_begin left
  have rightRouted := routed_begin right
  rw [← same] at rightRouted
  obtain ⟨identity, row, rows, meter, _, first, second, third, rfl⟩ := begin_eq_ok_iff.mp left
  obtain ⟨identity', row', rows', meter', _, first', second', third', rfl⟩ := begin_eq_ok_iff.mp right
  refine ⟨leftRouted, rightRouted, readings, rfl, rfl, ?_, ?_⟩
  · rintro rfl
    exact readings.1
  · cases lane with
    | system =>
      have rows : S.rows = T.rows := readings
      unfold Script.row at first first'
      rw [rows, first'] at first
      cases first
      rfl
    | processors =>
      obtain ⟨cores, matrices⟩ : S.cores = T.cores ∧ S.matrices = T.matrices := readings
      unfold Script.matrix at second second'
      rw [cores, matrices, second'] at second
      cases second
      unfold holding Script.firstStage
      rw [cores]
      rfl
    | direct =>
      have percents : S.percents = T.percents := readings
      unfold Script.firstMeter Script.percent at third third'
      rw [same, percents, third'] at third
      cases third
      rfl

/-- A sampler that does not use direct readings never asks for one. -/
theorem percents_of_unused (ready : begin S setup = .ok a) (unused : S.usesDirect setup = false) (calls : List Call) :
    (a.run S calls).2.progress.percents = 0 := by
  have routed := routed_begin ready
  rw [unused] at routed
  have other : ∀ call ∈ calls, laneOf false call.query ≠ some .direct := by
    intro call _
    cases call.query <;> exact fun contra => by cases contra
  obtain ⟨_, polled⟩ := Holding.percents.inj (holding_run_of_other routed other)
  obtain ⟨identity, row, rows, meter, _, _, _, first, rfl⟩ := begin_eq_ok_iff.mp ready
  have unmetered := (isSome_firstMeter first).trans unused
  rw [polled]
  unfold Script.firstStage
  rw [unmetered]
  rfl

/-- Two samplers are set up alike, over sources that bring the same in one lane and anything in the others. Runs that
    make the same calls in that lane give the same answers there, leave it in the same state and pull equally often.
    Raw queries leave the whole sampler, and a sampler that does not use direct readings never asks for one. -/
theorem lanes_do_not_interfere (lane : Lane) (left : begin S setup = .ok a) (right : begin T setup = .ok b)
    (readings : SameReadings lane S T) (measured : S.percents.isSome = T.percents.isSome) :
    (∀ xs ys : List Call,
      xs.filter (isOn (S.usesDirect setup) lane) = ys.filter (isOn (S.usesDirect setup) lane) →
        answersOn (S.usesDirect setup) lane (a.run S xs).1 = answersOn (S.usesDirect setup) lane (b.run T ys).1 ∧
          holding lane (a.run S xs).2 = holding lane (b.run T ys).2) ∧
      (∀ xs : List Call, ∀ call : Call, isRaw call.query →
        ((a.run S xs).2.answer S call).2.sampler = (a.run S xs).2.sampler) ∧
      (setup.useDirect = false ∨ S.percents = none →
        ∀ xs : List Call, (a.run S xs).2.progress.percents = 0) := by
  refine ⟨fun xs ys same => run_of_alike (alike_begin left right readings measured) same, ?_, ?_⟩
  · intro xs call raw
    exact sampler_of_raw raw
  · intro unused xs
    apply percents_of_unused left
    unfold Script.usesDirect
    rcases unused with off | absent
    · rw [off, Bool.false_and]
    · rw [absent, Option.isSome_none, Bool.and_false]

/-- A source that counts one tick a pull, and one that brings the same rows and then fails for the processors each. -/
def counting : Script where
  name := "counting"
  cores := 1
  physical := 1
  identity := .ok {}
  rows i := .ok (.list [.int (i + 1)])
  matrices i := .ok (.list [.list [.int (i + 1)]])
  percents := none
  uptime := .ok (.int 0)
  averages _ := .ok []

def breaking : Script :=
  { counting with matrices := fun i => if i = 0 then counting.matrices 0 else .error (.reported .runtime "gone") }

def usual : Setup := ⟨.int 950, .int 200, true, .int 0⟩

theorem lanes_do_not_interfere_after_failure :
    ∃ a b, begin counting usual = .ok a ∧ begin breaking usual = .ok b ∧
      answersOn (counting.usesDirect usual) .system
          (a.run counting [⟨.systemTickLoad, .int 1000⟩, ⟨.processorLoads, .int 1000⟩]).1 =
        answersOn (counting.usesDirect usual) .system
          (b.run breaking [⟨.processorLoads, .int 1000⟩, ⟨.systemTickLoad, .int 1000⟩]).1 := by
  have left : begin counting usual = .ok _ := (begin_eq_opened usual).trans rfl
  have right : begin breaking usual = .ok _ := (begin_eq_opened usual).trans rfl
  have runs := (lanes_do_not_interfere .system left right rfl rfl).1
    [⟨.systemTickLoad, .int 1000⟩, ⟨.processorLoads, .int 1000⟩]
    [⟨.processorLoads, .int 1000⟩, ⟨.systemTickLoad, .int 1000⟩] rfl
  exact ⟨_, _, left, right, runs.1⟩

end CpuLoad.Lanes
