import CpuLoad.Proofs.Lanes
import CpuLoad.Proofs.UnitInterval

/-!
Where the ticks go that a sampler takes over. All processors together have a series of rows, and so has each processor:
the row of the first sample, and one for each sample that a query takes over later. The generations that a query leaves
when it takes a sample over are a row of the series and the next one (`pairs_takeovers`), whatever is asked in between.
So growths add up to that from the first row to the newest (`sum_growths`), and so do the ticks that the shares stand for
if no counter goes back (`sum_busy`).
-/
namespace CpuLoad.TickAccount
open CpuLoad.Lanes CpuLoad.NearestDouble CpuLoad.Outcome CpuLoad.Sampling CpuLoad.Scripted CpuLoad.UnitInterval

/-! ### Growth -/

/-- No counter goes back. -/
def Advances (previous current : Snapshot) : Prop := List.Forall₂ (· ≤ ·) previous.toList current.toList

def growth (measure : Snapshot → Int) (previous current : Snapshot) : Int := measure current - measure previous

/-- The ticks that are not resting. -/
def working (row : Snapshot) : Int := row.total - row.resting

/-- The ticks between two rows that the exact share makes busy ones. -/
def busy (previous current : Snapshot) : Rat := previous.share current * growth Snapshot.total previous current

variable {previous current later : Snapshot}

theorem advances_iff : Advances previous current ↔ previous.user ≤ current.user ∧ previous.nice ≤ current.nice ∧
    previous.system ≤ current.system ∧ previous.idle ≤ current.idle ∧ previous.iowait ≤ current.iowait ∧
    previous.irq ≤ current.irq ∧ previous.softirq ≤ current.softirq := by
  simp [Advances, Snapshot.toList]

theorem Advances.refl (row : Snapshot) : Advances row row := by
  rw [advances_iff]
  omega

theorem Advances.trans (first : Advances previous current) (second : Advances current later) : Advances previous later := by
  rw [advances_iff] at first second ⊢
  omega

theorem Advances.growths (advances : Advances previous current) :
    0 ≤ growth working previous current ∧ 0 ≤ growth Snapshot.resting previous current := by
  rw [advances_iff] at advances
  unfold growth working Snapshot.resting Snapshot.total
  constructor <;> omega

theorem growth_total (previous current : Snapshot) : growth Snapshot.total previous current =
    growth working previous current + growth Snapshot.resting previous current := by
  unfold growth working
  omega

theorem share_eq (previous current : Snapshot) : previous.share current =
    if 0 < growth Snapshot.total previous current ∧ 0 ≤ growth Snapshot.resting previous current then
      (growth working previous current : Rat) / growth Snapshot.total previous current
    else 0 := by
  have split : current.total - previous.total - (current.resting - previous.resting) = growth working previous current := by
    unfold growth working
    omega
  rw [share_eq_div, split]
  rfl

section
variable (busyNonneg : 0 ≤ growth working previous current)
  (restingNonneg : 0 ≤ growth Snapshot.resting previous current)
include busyNonneg restingNonneg

/-- The share where neither the busy ticks nor the resting ones go back. Without any ticks it is zero, as a quotient by
    zero is. -/
theorem share_of_nonneg : previous.share current = (growth working previous current : Rat) /
    (growth working previous current + growth Snapshot.resting previous current) := by
  have total := growth_total previous current
  rw [share_eq]
  split_ifs with advance
  · rw [total, Int.cast_add]
  · have none : growth working previous current = 0 := by omega
    rw [none, Int.cast_zero, zero_div]

theorem share_nonneg : 0 ≤ previous.share current := by
  have first : (0 : Rat) ≤ growth working previous current := by exact_mod_cast busyNonneg
  have second : (0 : Rat) ≤ growth Snapshot.resting previous current := by exact_mod_cast restingNonneg
  rw [share_of_nonneg busyNonneg restingNonneg]
  positivity

theorem exists_load :
    ∃ x, Binary64.nearest? (previous.share current) = some x ∧ previous.load current = .ok x := by
  obtain ⟨x, nearest⟩ := exists_nearest (share_nonneg busyNonneg restingNonneg) share_le_one
  refine ⟨x, nearest, ?_⟩
  unfold Snapshot.load
  rw [nearest]
  rfl

end

/-- The busy ticks of an advance are those that are not resting, also if there are none at all. -/
theorem busy_of_advances (advances : Advances previous current) :
    busy previous current = growth working previous current := by
  obtain ⟨busyNonneg, restingNonneg⟩ := advances.growths
  unfold busy
  rw [share_of_nonneg busyNonneg restingNonneg, growth_total, Int.cast_add]
  generalize growth working previous current = b at *
  generalize growth Snapshot.resting previous current = r at *
  by_cases positive : 0 < b + r
  · have nonzero : (b : Rat) + r ≠ 0 := by exact_mod_cast ne_of_gt positive
    exact div_mul_cancel₀ _ nonzero
  · obtain rfl : b = 0 := by omega
    rw [Int.cast_zero, zero_div, zero_mul]

/-! ### Rows one after the other -/

/-- Each of some rows with the one after it. -/
def steps (first : Snapshot) (rows : List Snapshot) : List (Snapshot × Snapshot) := (first :: rows).zip rows

theorem steps_cons (first row : Snapshot) (rows : List Snapshot) :
    steps first (row :: rows) = (first, row) :: steps row rows := rfl

/-- Growths add up to that from the first row to the last one. -/
theorem sum_growths (measure : Snapshot → Int) (first : Snapshot) (rows : List Snapshot) :
    ((steps first rows).map fun pair => growth measure pair.1 pair.2).sum = growth measure first (rows.getLastD first) := by
  induction rows generalizing first with
  | nil =>
    show 0 = measure first - measure first
    omega
  | cons row rows ih =>
    rw [steps_cons, List.map_cons, List.sum_cons, ih row, List.getLastD_cons]
    unfold growth
    dsimp only
    omega

theorem advances_last {first : Snapshot} {rows : List Snapshot}
    (advances : ∀ pair ∈ steps first rows, Advances pair.1 pair.2) : Advances first (rows.getLastD first) := by
  induction rows generalizing first with
  | nil => exact Advances.refl first
  | cons row rows ih =>
    rw [steps_cons] at advances
    have ⟨here, rest⟩ := List.forall_mem_cons.mp advances
    rw [List.getLastD_cons]
    exact Advances.trans here (ih rest)

/-- Busy ticks add up to those from the first row to the last one, if no counter goes back. -/
theorem sum_busy {first : Snapshot} {rows : List Snapshot}
    (advances : ∀ pair ∈ steps first rows, Advances pair.1 pair.2) :
    ((steps first rows).map fun pair => busy pair.1 pair.2).sum = busy first (rows.getLastD first) := by
  have each : ((steps first rows).map fun pair => busy pair.1 pair.2) =
      ((steps first rows).map fun pair => growth working pair.1 pair.2).map (Int.castRingHom Rat) := by
    rw [List.map_map]
    exact List.map_congr_left fun pair member => busy_of_advances (advances pair member)
  rw [each, ← map_list_sum, sum_growths, busy_of_advances (advances_last advances)]
  rfl

/-! ### Series -/

/-- What rows follow each other in: those of all processors together, or those of one processor. -/
inductive Series
  | system
  | processor (i : Nat)

namespace Series

def lane : Series → Lane
  | system => .system
  | processor _ => .processors

def IsOf (script : Script) : Series → Prop
  | system => True
  | processor i => (i : Int) < script.cores

def rowAt (i : Nat) (rows : List Snapshot) : Snapshot := rows.getD i .zero

/-- The generations that a sampler has in a series. -/
def pair (s : Sampler Value) : Series → Snapshot × Snapshot
  | system => s.system.pair
  | processor i => (rowAt i s.processors.previous, rowAt i s.processors.current)

/-- The row of the first sample, which is zero if that was rejected. -/
def first (script : Script) : Series → Except Fault Snapshot
  | system => (script.row 0).map fun row => if row.isNonzero then row else .zero
  | processor i => (script.matrix script.cores 0).map fun rows => if Sampler.isUsable rows then rowAt i rows else .zero

/-- The row that a query takes over in a series, if it does. -/
def takenBy (script : Script) (a : Stage) (call : Call) (series : Series) : Option Snapshot :=
  if figureOf a.sampler.meter.isSome call.query = some series.lane then
    match series with
    | system =>
      taken Sampler.acceptRow a.sampler.threshold call.now script.row a.sampler.system a.progress.rows
    | processor i =>
      (taken Sampler.acceptMatrix a.sampler.threshold call.now (script.matrix a.sampler.cores)
        a.sampler.processors a.progress.matrices).map (rowAt i)
  else none

def figure : Series → Answer → Option Float
  | system, .load x => some x
  | processor i, .loads xs => xs[i]?
  | _, _ => none

end Series

/-- A row that a query takes over, what the query answers and what it leaves. -/
structure Takeover where
  row : Snapshot
  answer : Except Fault Answer
  left : Sampler Value

def takeovers (script : Script) (series : Series) : List Call → Stage → List Takeover
  | [], _ => []
  | call :: calls, a =>
    let (answer, b) := a.answer script call
    let rest := takeovers script series calls b
    match series.takenBy script a call with
    | some row => ⟨row, answer, b.sampler⟩ :: rest
    | none => rest

/-! ### One query -/

variable {script : Script} {setup : Setup} {usesDirect : Bool} {a : Stage} {series : Series}

private def rowsOf (i : Nat) (s : Store Value (List Snapshot)) : Snapshot × Snapshot :=
  (Series.rowAt i s.previous, Series.rowAt i s.current)

private theorem pair_of_holding {b : Stage} (same : holding series.lane a = holding series.lane b) :
    series.pair a.sampler = series.pair b.sampler := by
  cases series with
  | system =>
    obtain ⟨store, _⟩ := Holding.rows.inj same
    exact congrArg Store.pair store
  | processor i =>
    obtain ⟨store, _⟩ := Holding.matrices.inj same
    exact congrArg (rowsOf i) store

def Steps (script : Script) (series : Series) (a : Stage) (call : Call) : Prop :=
  let (answer, b) := a.answer script call
  (∃ row, series.takenBy script a call = some row ∧ series.pair b.sampler = ((series.pair a.sampler).2, row) ∧
    answer = report b.sampler series.lane) ∨
  (series.takenBy script a call = none ∧ series.pair b.sampler = series.pair a.sampler)

private theorem steps_system (routed : Routed usesDirect script a) {call : Call}
    (asked : figureOf usesDirect call.query = some .system) : Steps script .system a call := by
  have offered : Series.system.takenBy script a call = taken Sampler.acceptRow a.sampler.threshold call.now
      script.row a.sampler.system a.progress.rows := by
    apply if_pos
    rw [routed.metered]
    exact asked
  unfold Steps
  rw [answer_of_system_figure routed asked, Stage.answer_systemTickLoad, offered]
  cases took : taken Sampler.acceptRow a.sampler.threshold call.now script.row a.sampler.system
    a.progress.rows with
  | none => exact .inr ⟨rfl, congrArg Store.pair (store_of_untaken took)⟩
  | some row =>
    obtain ⟨_, result⟩ := refreshed_of_taken took
    rw [result]
    exact .inl ⟨row, rfl, rfl, rfl⟩

private theorem steps_processor (routed : Routed usesDirect script a) (i : Nat) {call : Call}
    (asked : figureOf usesDirect call.query = some .processors) : Steps script (.processor i) a call := by
  have offered : (Series.processor i).takenBy script a call =
      (taken Sampler.acceptMatrix a.sampler.threshold call.now (script.matrix a.sampler.cores)
        a.sampler.processors a.progress.matrices).map (Series.rowAt i) := by
    apply if_pos
    rw [routed.metered]
    exact asked
  unfold Steps
  rw [answer_of_processor_figures asked, Stage.answer_processorLoads, offered]
  cases took : taken Sampler.acceptMatrix a.sampler.threshold call.now (script.matrix a.sampler.cores)
    a.sampler.processors a.progress.matrices with
  | none => exact .inr ⟨rfl, congrArg (rowsOf i) (store_of_untaken took)⟩
  | some rows =>
    obtain ⟨_, result⟩ := refreshed_of_taken took
    rw [result]
    exact .inl ⟨Series.rowAt i rows, rfl, rfl, rfl⟩

/-- Only a query that asks for a figure of the lane can take a row over. -/
theorem steps_answer (routed : Routed usesDirect script a) (call : Call) : Steps script series a call := by
  by_cases asked : figureOf usesDirect call.query = some series.lane
  · cases series with
    | system => exact steps_system routed asked
    | processor i => exact steps_processor routed i asked
  · refine .inr ⟨if_neg (by rw [routed.metered]; exact asked), ?_⟩
    -- A query of the lane that asks for no figure shows the ticks as they are; one of another lane leaves the stores.
    by_cases own : laneOf usesDirect call.query = some series.lane
    · have quiet : figureOf usesDirect call.query = none := by
        cases figure : figureOf usesDirect call.query with
        | none => rfl
        | some lane =>
          rw [laneOf_of_figure figure] at own
          rw [figure] at asked
          exact absurd own asked
      exact congrArg (fun s => series.pair s) (sampler_of_no_figure quiet)
    · exact pair_of_holding (holding_of_other routed own)

/-! ### What the answers show -/

/-- The matrices that a sampler keeps have a row for each processor. -/
structure Sized (count : Int) (s : Sampler Value) : Prop where
  cores : s.cores = count
  previous : (s.processors.previous.length : Int) = count
  current : (s.processors.current.length : Int) = count

theorem length_of_matrix {count : Int} (nonneg : 0 ≤ count) {n : Nat} {rows : List Snapshot}
    (brought : script.matrix count n = .ok rows) : (rows.length : Int) = count := by
  unfold Script.matrix at brought
  obtain ⟨matrix, _, sized⟩ := eq_ok_of_bind brought
  obtain ⟨_, _, read⟩ := eq_ok_of_bind sized
  obtain ⟨items, _, known⟩ := eq_ok_of_bind read
  exact Sampler.length_matrixOf nonneg known

theorem sized_answer {count : Int} (nonneg : 0 ≤ count) (routed : Routed usesDirect script a)
    (sized : Sized count a.sampler) (call : Call) : Sized count (a.answer script call).2.sampler := by
  have cores : (a.answer script call).2.sampler.cores = count := (keeps_answer routed call).cores.trans sized.cores
  have unchanged (same : (a.answer script call).2.sampler.processors = a.sampler.processors) :
      Sized count (a.answer script call).2.sampler :=
    ⟨cores, by rw [same]; exact sized.previous, by rw [same]; exact sized.current⟩
  by_cases own : laneOf usesDirect call.query = some .processors
  · cases asked : figureOf usesDirect call.query with
    | none =>
      apply unchanged
      rw [sampler_of_no_figure asked]
    | some lane =>
      rw [laneOf_of_figure asked] at own
      cases own
      rw [answer_of_processor_figures asked, Stage.answer_processorLoads] at cores unchanged ⊢
      cases took : taken Sampler.acceptMatrix a.sampler.threshold call.now
        (script.matrix a.sampler.cores) a.sampler.processors a.progress.matrices with
      | none => exact unchanged (store_of_untaken took)
      | some rows =>
        obtain ⟨brought, result⟩ := refreshed_of_taken took
        rw [sized.cores] at brought
        rw [result]
        exact ⟨sized.cores, sized.current, length_of_matrix nonneg brought⟩
  · obtain ⟨same, _⟩ := Holding.matrices.inj (holding_of_other routed own)
    exact unchanged same

theorem sized_begin (ready : begin script setup = .ok a) (nonneg : 0 ≤ script.cores) : Sized script.cores a.sampler := by
  obtain ⟨identity, row, rows, meter, _, _, second, _, rfl⟩ := begin_eq_ok_iff.mp ready
  have blank : ((List.replicate script.cores.toNat Snapshot.zero).length : Int) = script.cores := by
    rw [List.length_replicate]
    omega
  have length := length_of_matrix nonneg second
  have store := @Script.processors_firstStage script setup identity row rows meter
  cases accepted : Sampler.isUsable rows with
  | true =>
    rw [accepted, if_pos rfl] at store
    exact ⟨rfl, by rw [store]; exact length, by rw [store]; exact length⟩
  | false =>
    rw [accepted, if_neg Bool.false_ne_true] at store
    exact ⟨rfl, by rw [store]; exact blank, by rw [store]; exact blank⟩

variable {left : Sampler Value} {answer : Answer}

private theorem getElem_of_rowAt {i : Nat} {rows : List Snapshot} (known : (i : Int) < rows.length) :
    rows[i]? = some (Series.rowAt i rows) := by
  have bound : i < rows.length := by exact_mod_cast known
  unfold Series.rowAt
  rw [List.getD_eq_getElem?_getD, List.getElem?_eq_getElem bound]
  rfl

theorem figure_of_report (sized : 0 ≤ script.cores → Sized script.cores left) (known : series.IsOf script)
    (answered : report left series.lane = .ok answer) : ∃ x, series.figure answer = some x ∧
      Binary64.nearest? ((series.pair left).1.share (series.pair left).2) = some x := by
  cases series with
  | system =>
    obtain ⟨x, found, rfl⟩ := eq_ok_of_map answered
    exact ⟨x, rfl, nearest_of_load found⟩
  | processor i =>
    obtain ⟨xs, found, rfl⟩ := eq_ok_of_map answered
    have sized := sized (le_of_lt (lt_of_le_of_lt (Int.natCast_nonneg i) known))
    have previous := getElem_of_rowAt (known.trans_eq sized.previous.symm)
    have current := getElem_of_rowAt (known.trans_eq sized.current.symm)
    have pair : (left.processors.previous.zip left.processors.current)[i]? = some ((Series.processor i).pair left) :=
      List.getElem?_zip_eq_some.mpr ⟨previous, current⟩
    have each := congrArg (fun ys => ys[i]?) (mapM_eq_ok_iff.mp found)
    dsimp only at each
    rw [List.getElem?_map, List.getElem?_map] at each
    change Option.map _ (left.processors.previous.zip left.processors.current)[i]? = _ at each
    rw [pair] at each
    obtain ⟨x, figure, load⟩ := Option.map_eq_some_iff.mp each.symm
    exact ⟨x, figure, nearest_of_load load.symm⟩

theorem load_of_advances (advances : Advances previous current) : ∃ x, previous.load current = .ok x := by
  obtain ⟨busyNonneg, restingNonneg⟩ := advances.growths
  obtain ⟨x, _, found⟩ := exists_load busyNonneg restingNonneg
  exact ⟨x, found⟩

/-- A query is answered if no counter goes back in any series that it reports on. -/
theorem report_of_advances (sized : 0 ≤ script.cores → Sized script.cores left) (known : series.IsOf script)
    (advances : ∀ other : Series, other.lane = series.lane → other.IsOf script →
      Advances (other.pair left).1 (other.pair left).2) : ∃ answer, report left series.lane = .ok answer := by
  cases series with
  | system =>
    obtain ⟨x, found⟩ := load_of_advances (advances .system rfl trivial)
    exact ⟨.load x, congrArg (Except.map Answer.load) found⟩
  | processor i =>
    have sized := sized (le_of_lt (lt_of_le_of_lt (Int.natCast_nonneg i) known))
    have each : ∀ pair ∈ left.processors.previous.zip left.processors.current, ∃ x, pair.1.load pair.2 = .ok x := by
      intro pair member
      obtain ⟨j, place⟩ := List.mem_iff_getElem?.mp member
      obtain ⟨previous, current⟩ := List.getElem?_zip_eq_some.mp place
      have bound : (j : Int) < script.cores := by
        rw [← sized.previous]
        exact_mod_cast (List.getElem?_eq_some_iff.mp previous).1
      have same : (Series.processor j).pair left = pair := by
        show (left.processors.previous.getD j .zero, left.processors.current.getD j .zero) = pair
        rw [List.getD_eq_getElem?_getD, List.getD_eq_getElem?_getD, previous, current]
        rfl
      have row := advances (.processor j) rfl bound
      rw [same] at row
      exact load_of_advances row
    obtain ⟨xs, found⟩ := exists_mapM_eq_ok each
    exact ⟨.loads xs, congrArg (Except.map Answer.loads) found⟩

/-! ### Runs -/

/-- The generations that the takeovers of a run leave are the rows one after the other, from the newest one that the
    series had before. -/
theorem pairs_takeovers (routed : Routed usesDirect script a) (calls : List Call) :
    (takeovers script series calls a).map (fun took => series.pair took.left) =
      steps (series.pair a.sampler).2 ((takeovers script series calls a).map Takeover.row) := by
  induction calls generalizing a with
  | nil => rfl
  | cons call calls ih =>
    have later := ih (routed_answer routed call)
    unfold takeovers
    have step : Steps script series a call := steps_answer routed call
    rcases step with ⟨row, took, pair, _⟩ | ⟨untaken, pair⟩
    · change series.pair (a.answer script call).2.sampler = _ at pair
      simp only [took, List.map_cons, later, steps_cons, pair]
    · change series.pair (a.answer script call).2.sampler = _ at pair
      simp only [untaken, later, pair]

/-- What every query keeps and every takeover gives, holds of all takeovers of a run. -/
theorem takeovers_induction {P : Stage → Prop} {Q : Takeover → Prop}
    (keeps : ∀ (b : Stage) (call : Call), P b → P (b.answer script call).2)
    (gives : ∀ (b : Stage) (call : Call) (row : Snapshot), P b → series.takenBy script b call = some row →
      Q ⟨row, (b.answer script call).1, (b.answer script call).2.sampler⟩)
    (calls : List Call) (begun : P a) : ∀ took ∈ takeovers script series calls a, Q took := by
  induction calls generalizing a with
  | nil =>
    intro took contra
    cases contra
  | cons call calls ih =>
    have later := ih (keeps a call begun)
    unfold takeovers
    cases took : series.takenBy script a call with
    | none => exact later
    | some row => exact List.forall_mem_cons.mpr ⟨gives a call row begun took, later⟩

theorem report_takeovers (routed : Routed usesDirect script a) (calls : List Call) :
    ∀ took ∈ takeovers script series calls a, took.answer = report took.left series.lane := by
  refine takeovers_induction (P := Routed usesDirect script) (fun b call before => routed_answer before call) ?_ calls routed
  intro b call row before took
  have step : Steps script series b call := steps_answer before call
  rcases step with ⟨_, _, _, report⟩ | ⟨contra, _⟩
  · exact report
  · rw [took] at contra
    cases contra

theorem sized_takeovers (nonneg : 0 ≤ script.cores) (routed : Routed usesDirect script a)
    (sized : Sized script.cores a.sampler) (calls : List Call) :
    ∀ took ∈ takeovers script series calls a, Sized script.cores took.left :=
  takeovers_induction (P := fun b => Routed usesDirect script b ∧ Sized script.cores b.sampler)
    (fun _ call before => ⟨routed_answer before.1 call, sized_answer nonneg before.1 before.2 call⟩)
    (fun _ call _ before _ => sized_answer nonneg before.1 before.2 call) calls ⟨routed, sized⟩

theorem first_begin (ready : begin script setup = .ok a) : series.first script = .ok (series.pair a.sampler).2 := by
  obtain ⟨identity, row, rows, meter, _, first, second, _, rfl⟩ := begin_eq_ok_iff.mp ready
  cases series with
  | system =>
    show (script.row 0).map _ = .ok (script.firstStage setup identity row rows meter).sampler.system.current
    rw [first, Script.system_firstStage]
    simp only [Except.map]
    cases row.isNonzero <;> rfl
  | processor i =>
    show (script.matrix script.cores 0).map _ =
      .ok (Series.rowAt i (script.firstStage setup identity row rows meter).sampler.processors.current)
    rw [second, Script.processors_firstStage]
    simp only [Except.map]
    cases Sampler.isUsable rows with
    | true => rfl
    | false =>
      have blank : Series.rowAt i (List.replicate script.cores.toNat .zero) = .zero := by
        unfold Series.rowAt
        rw [List.getD_eq_getElem?_getD, List.getElem?_replicate]
        split <;> rfl
      exact congrArg Except.ok blank.symm

/-- Over any run of a new sampler, for all processors together and for each of them: the generations from which each
    takeover is answered are the first row and the rows taken over, one after the other. So growths add up to the growth
    from the first row to the newest, in total and at rest, whatever queries come in between. If no counter goes back at
    any takeover, the exact shares stand for ticks that add up to what the share from the first row to the newest stands
    for. What is answered at a takeover is for each series the double nearest to the exact share, and there is an answer
    if no counter goes back. -/
theorem ticks_are_counted_once (ready : begin script setup = .ok a) (known : series.IsOf script)
    (calls : List Call) : ∃ first, series.first script = .ok first ∧
    let taken := takeovers script series calls a
    let rows := taken.map Takeover.row
    let newest := rows.getLastD first
    let pairs := taken.map fun took => series.pair took.left
    pairs = (first :: rows).zip rows ∧
    (pairs.map fun pair => growth Snapshot.total pair.1 pair.2).sum = newest.total - first.total ∧
    (pairs.map fun pair => growth Snapshot.resting pair.1 pair.2).sum = newest.resting - first.resting ∧
    ((∀ pair ∈ pairs, Advances pair.1 pair.2) →
      (pairs.map fun pair => pair.1.share pair.2 * (growth Snapshot.total pair.1 pair.2 : Rat)).sum =
        first.share newest * (newest.total - first.total : Int)) ∧
    ∀ took ∈ taken, took.answer = report took.left series.lane ∧
      (∀ answer, took.answer = .ok answer → ∃ x, series.figure answer = some x ∧
        Binary64.nearest? ((series.pair took.left).1.share (series.pair took.left).2) = some x) ∧
      ((∀ other : Series, other.lane = series.lane → other.IsOf script →
        Advances (other.pair took.left).1 (other.pair took.left).2) → ∃ answer, took.answer = .ok answer) := by
  have routed := routed_begin ready
  have follow : (takeovers script series calls a).map (fun took => series.pair took.left) =
    steps (series.pair a.sampler).2 ((takeovers script series calls a).map Takeover.row) := pairs_takeovers routed calls
  refine ⟨_, first_begin ready, follow, ?_, ?_, ?_, ?_⟩
  · rw [follow]
    exact sum_growths ..
  · rw [follow]
    exact sum_growths ..
  · rw [follow]
    exact sum_busy
  · intro took member
    have sized (nonneg : 0 ≤ script.cores) : Sized script.cores took.left :=
      sized_takeovers nonneg routed (sized_begin ready nonneg) calls took member
    rw [report_takeovers routed calls took member]
    exact ⟨rfl, fun _ => figure_of_report sized known, report_of_advances sized known⟩

/-- Two queries that are due, with one between them that is not and one that shows the ticks as they are. -/
def visits : List Call :=
  [⟨.processorLoads, .int 1000⟩, ⟨.processorLoads, .int 1200⟩, ⟨.processorTicks, .int 1300⟩, ⟨.processorLoads, .int 2000⟩]

theorem ticks_are_counted_once_by_one_processor : ∃ a, begin counting usual = .ok a ∧
    let pairs := (takeovers counting (.processor 0) visits a).map fun took => (Series.processor 0).pair took.left
    pairs = [(⟨1, 0, 0, 0, 0, 0, 0⟩, ⟨2, 0, 0, 0, 0, 0, 0⟩), (⟨2, 0, 0, 0, 0, 0, 0⟩, ⟨4, 0, 0, 0, 0, 0, 0⟩)] ∧
      (pairs.map fun pair => pair.1.share pair.2 * (growth Snapshot.total pair.1 pair.2 : Rat)).sum = 3 := by
  have ready : begin counting usual = .ok _ := (begin_eq_opened usual).trans rfl
  obtain ⟨first, known, _, _, _, exact, _⟩ :=
    @ticks_are_counted_once counting usual _ (.processor 0) ready Int.one_pos visits
  have one : (Series.processor 0).first counting = .ok ⟨1, 0, 0, 0, 0, 0, 0⟩ := rfl
  obtain rfl : first = ⟨1, 0, 0, 0, 0, 0, 0⟩ := Except.ok.inj (known.symm.trans one)
  refine ⟨_, ready, by decide +kernel, (exact ?_).trans (by decide +kernel)⟩
  have advances : ∀ pair ∈ [((⟨1, 0, 0, 0, 0, 0, 0⟩ : Snapshot), (⟨2, 0, 0, 0, 0, 0, 0⟩ : Snapshot)),
      (⟨2, 0, 0, 0, 0, 0, 0⟩, ⟨4, 0, 0, 0, 0, 0, 0⟩)], Advances pair.1 pair.2 := by
    simp [advances_iff]
  convert advances using 3
  decide +kernel

end CpuLoad.TickAccount
