import CpuLoad.Proofs.NearestDouble
import CpuLoad.Proofs.Scripted

/-!
How far the answers of a sampler are from lying between zero and one. A direct value always lies there. A busy share is
at most one whatever the counters do, but it is below zero if the counters advance together while those of the idle
states advance by more: then some busy counter went back (`Retreats`, `load_bounds`). These are the only answers
outside the unit interval.
-/
namespace CpuLoad.UnitInterval
open CpuLoad.Binary64 CpuLoad.DoubleOrder CpuLoad.NearestDouble CpuLoad.Outcome CpuLoad.Scripted

/-- The doubles between zero and one. -/
def InUnit (x : Float) : Prop := 0.0 ≤ x ∧ x ≤ 1.0

/-- Whether the busy counters go back between two snapshots that pass for an advance, by so much that the share is not
    rounded to zero. -/
def Retreats (previous current : Snapshot) : Prop :=
  let total := current.total - previous.total
  let resting := current.resting - previous.resting
  0 < total ∧ 0 ≤ resting ∧ total < (resting - total) * 2 ^ 1075

/-! ### Shares -/

variable {previous current : Snapshot} {x : Float}

/-- The exact share as a quotient of rational numbers. -/
theorem share_eq_div (previous current : Snapshot) :
    let total := current.total - previous.total
    let resting := current.resting - previous.resting
    previous.share current = if 0 < total ∧ 0 ≤ resting then ((total - resting : Int) : Rat) / (total : Rat) else 0 := by
  intro total resting
  refine if_ctx_congr Iff.rfl (fun advance => ?_) fun _ => rfl
  have whole : ((total.toNat : Nat) : Rat) = (total : Rat) := by exact_mod_cast Int.toNat_of_nonneg (le_of_lt advance.1)
  rw [Rat.mkRat_eq_div, whole]

/-- The share is at most one, whatever the counters do. -/
theorem share_le_one : previous.share current ≤ 1 := by
  rw [share_eq_div]
  split_ifs with advance
  · obtain ⟨positive, nonneg⟩ := advance
    have divisor : (0 : Rat) < ((current.total - previous.total : Int) : Rat) := by exact_mod_cast positive
    have part : current.total - previous.total - (current.resting - previous.resting) ≤ current.total - previous.total := by
      omega
    rw [div_le_one divisor]
    exact_mod_cast part
  · exact zero_le_one

theorem neg_one_le_share_iff : -1 ≤ previous.share current * 2 ^ 1075 ↔ ¬ Retreats previous current := by
  rw [share_eq_div]
  unfold Retreats
  dsimp only
  generalize current.total - previous.total = total
  generalize current.resting - previous.resting = resting
  split_ifs with advance
  · obtain ⟨positive, nonneg⟩ := advance
    have divisor : (0 : Rat) < total := by exact_mod_cast positive
    have product : (resting - total) * 2 ^ 1075 = -((total - resting) * 2 ^ 1075) := by rw [← Int.neg_mul, Int.neg_sub]
    have cleared (s : Nat) : -1 ≤ ((total - resting : Int) : Rat) / total * 2 ^ s ↔ -total ≤ (total - resting) * 2 ^ s := by
      rw [div_mul_eq_mul_div, le_div_iff₀ divisor, neg_one_mul]
      exact_mod_cast Iff.rfl
    rw [cleared, product]
    generalize (total - resting) * 2 ^ 1075 = scaled
    constructor
    · rintro bound ⟨_, _, beyond⟩
      omega
    · intro within
      by_contra beyond
      exact within ⟨positive, nonneg, by omega⟩
  · rw [zero_mul]
    constructor
    · rintro _ ⟨positive, nonneg, _⟩
      exact advance ⟨positive, nonneg⟩
    · intro _
      norm_num

/-- A busy share that is answered is the double nearest to the exact one. -/
theorem nearest_of_load (found : previous.load current = .ok x) : nearest? (previous.share current) = some x := by
  unfold Snapshot.load at found
  cases nearest : nearest? (previous.share current) with
  | none =>
    rw [nearest] at found
    cases found
  | some y =>
    rw [nearest] at found
    cases found
    rfl

/-- A busy share is at most one, and it lies in the unit interval exactly if the busy counters do not go back. -/
theorem load_bounds (found : previous.load current = .ok x) : x ≤ 1.0 ∧ (InUnit x ↔ ¬ Retreats previous current) := by
  have nearest := nearest_of_load found
  have most : x ≤ 1.0 := nearest_le_one nearest share_le_one
  exact ⟨most, (and_iff_left most).trans ((nearest_nonneg_iff nearest).trans neg_one_le_share_iff)⟩

/-! ### Direct values -/

/-- A share of any percentage that is a number lies between zero and one. -/
theorem inUnit_unitShare {percent : Float} (number : percent.isNaN = false) : InUnit (unitShare percent) := by
  have hundred : parts 100.0 = .finite false (25 * 2 ^ 48) (-46) := by decide
  have share : (percent / 100.0).isNaN = false := isNaN_div number (by decide) hundred
  have zeroInUnit : InUnit 0.0 := ⟨by decide, by decide⟩
  have oneInUnit : InUnit 1.0 := ⟨by decide, by decide⟩
  unfold unitShare
  dsimp only
  by_cases below : percent / 100.0 < 0.0
  · rw [if_pos below, if_neg (by decide)]
    exact zeroInUnit
  · rw [if_neg below]
    rw [lt_iff share rfl] at below
    by_cases above : 1.0 < percent / 100.0
    · rw [if_pos above]
      exact oneInUnit
    · rw [if_neg above]
      rw [lt_iff rfl share] at above
      refine ⟨(le_iff rfl share).mpr ?_, (le_iff share rfl).mpr ?_⟩
      · exact Int.not_lt.mp below
      · exact Int.not_lt.mp above

/-- A reading that is not available keeps the value, and any other one brings a share. -/
theorem inUnit_valueAfter {kept : Float} (before : InUnit kept) (reading : Option Float) :
    InUnit (Meter.valueAfter kept reading) := by
  unfold Meter.valueAfter Meter.available
  cases reading with
  | none => exact before
  | some percent =>
    rw [Option.filter_some]
    cases number : percent.isNaN with
    | true => exact before
    | false => exact inUnit_unitShare number

/-! ### Runs -/

/-- Whether the value of a sampler's meter, if it has one, lies between zero and one. -/
def MeterInUnit (a : Stage) : Prop := ∀ meter, a.sampler.meter = some meter → InUnit meter.value

variable {script : Script} {setup : Setup} {usesDirect : Bool} {a : Stage}

theorem meterInUnit_answer (routed : Routed usesDirect script a) (inUnit : MeterInUnit a) (call : Call) :
    MeterInUnit (a.answer script call).2 := by
  obtain ⟨query, now⟩ := call
  cases query with
  | systemTicks => rw [Stage.answer_systemTicks]; exact inUnit
  | processorTicks => rw [Stage.answer_processorTicks]; exact inUnit
  | systemTickLoad => rw [Stage.answer_systemTickLoad]; exact inUnit
  | processorLoads => rw [Stage.answer_processorLoads]; exact inUnit
  | averages count => rw [Stage.answer_averages]; exact inUnit
  | uptime => rw [Stage.answer_uptime]; exact inUnit
  | systemLoad =>
    rcases answer_systemLoad_cases routed now with ⟨_, _, same⟩ | ⟨_, meter, used, same⟩
    · rw [same, Stage.answer_systemTickLoad]
      exact inUnit
    · rw [same]
      rintro _ ⟨⟩
      rcases polled_value a.sampler.hold now script.percent meter a.progress.percents with kept | ⟨reading, taken⟩
      · rw [kept]
        exact inUnit meter used
      · rw [taken]
        exact inUnit_valueAfter (inUnit meter used) reading

theorem meterInUnit_begin (ready : begin script setup = .ok a) : MeterInUnit a := by
  obtain ⟨identity, row, rows, meter, _, _, _, first, rfl⟩ := begin_eq_ok_iff.mp ready
  intro meter' used
  have same : meter = some meter' := used
  unfold Script.firstMeter at first
  split_ifs at first with direct
  · cases read : script.percent 0 with
    | error e =>
      rw [read] at first
      cases first
    | ok reading =>
      rw [read, same] at first
      cases first
      exact inUnit_valueAfter ⟨by decide, by decide⟩ reading
  · rw [same] at first
    cases first

/-- Whether an answer is of the kind that a query asks for. -/
def fits : Query → Answer → Bool
  | .systemLoad, .load _ | .systemTickLoad, .load _ | .processorLoads, .loads _ => true
  | .systemTicks, .ticks _ | .processorTicks, .matrix _ => true
  | .averages _, .figures _ | .uptime, .figure _ => true
  | _, _ => false

theorem fits_answer (routed : Routed usesDirect script a) {call : Call} {answer : Answer}
    (answered : (a.answer script call).1 = .ok answer) : fits call.query answer := by
  obtain ⟨query, now⟩ := call
  cases query with
  | systemTicks =>
    rw [Stage.answer_systemTicks] at answered
    obtain ⟨_, _, rfl⟩ := eq_ok_of_map answered
    rfl
  | processorTicks =>
    rw [Stage.answer_processorTicks] at answered
    obtain ⟨_, _, rfl⟩ := eq_ok_of_map answered
    rfl
  | systemTickLoad =>
    rw [Stage.answer_systemTickLoad] at answered
    obtain ⟨_, _, rfl⟩ := eq_ok_of_map answered
    rfl
  | processorLoads =>
    rw [Stage.answer_processorLoads] at answered
    obtain ⟨_, _, rfl⟩ := eq_ok_of_map answered
    rfl
  | averages count =>
    rw [Stage.answer_averages] at answered
    obtain ⟨_, _, rfl⟩ := eq_ok_of_map answered
    rfl
  | uptime =>
    rw [Stage.answer_uptime] at answered
    obtain ⟨_, _, rfl⟩ := eq_ok_of_map answered
    rfl
  | systemLoad =>
    rcases answer_systemLoad_cases routed now with ⟨_, _, same⟩ | ⟨_, _, _, same⟩
    · rw [same, Stage.answer_systemTickLoad] at answered
      obtain ⟨_, _, rfl⟩ := eq_ok_of_map answered
      rfl
    · rw [same] at answered
      obtain ⟨_, _, rfl⟩ := eq_ok_of_map answered
      rfl

/-- A share of the ticks is that of the two generations that the store has afterwards. -/
private theorem systemTickLoad_bounds {now : Value} (answered : (a.answer script ⟨.systemTickLoad, now⟩).1 = .ok (.load x)) :
    x ≤ 1.0 ∧ (InUnit x ↔ ¬ Retreats (a.answer script ⟨.systemTickLoad, now⟩).2.sampler.system.previous
      (a.answer script ⟨.systemTickLoad, now⟩).2.sampler.system.current) := by
  rw [Stage.answer_systemTickLoad] at answered ⊢
  obtain ⟨y, share, same⟩ := eq_ok_of_map answered
  obtain ⟨pair, asked, found⟩ := eq_ok_of_bind share
  cases same
  have bounds := load_bounds found
  rw [pair_of_refreshed asked] at bounds
  exact bounds

/-- The shares of the processors are those of the two generations that the store has afterwards, one by one. -/
private theorem processorLoads_bounds {now : Value} {xs : List Float}
    (answered : (a.answer script ⟨.processorLoads, now⟩).1 = .ok (.loads xs)) :
    List.Forall₂ (fun pair x => x ≤ 1.0 ∧ (InUnit x ↔ ¬ Retreats pair.1 pair.2))
      ((a.answer script ⟨.processorLoads, now⟩).2.sampler.processors.previous.zip
        (a.answer script ⟨.processorLoads, now⟩).2.sampler.processors.current) xs := by
  rw [Stage.answer_processorLoads] at answered ⊢
  obtain ⟨ys, shares, same⟩ := eq_ok_of_map answered
  obtain ⟨pair, asked, found⟩ := eq_ok_of_bind shares
  cases same
  unfold Sampler.loads at found
  have each : List.Forall₂ (fun pair x => pair.1.load pair.2 = .ok x) (pair.1.zip pair.2) xs := by
    have traversed := mapM_eq_ok_iff.mp found
    rw [← List.forall₂_eq_eq_eq, List.forall₂_map_left_iff, List.forall₂_map_right_iff] at traversed
    exact traversed
  rw [pair_of_refreshed asked] at each
  exact each.imp fun _ _ found => load_bounds found

/-- The system's load is the direct value of a sampler that uses direct readings, and that lies between zero and one. -/
private theorem inUnit_systemLoad (routed : Routed true script a) (inUnit : MeterInUnit a) {now : Value}
    (answered : (a.answer script ⟨.systemLoad, now⟩).1 = .ok (.load x)) : InUnit x := by
  have after := meterInUnit_answer routed inUnit ⟨.systemLoad, now⟩
  obtain ⟨contra, _⟩ | ⟨_, meter, used, same⟩ := answer_systemLoad_cases routed now
  · cases contra
  rw [same] at answered after
  obtain ⟨y, polled, answer⟩ := eq_ok_of_map answered
  cases answer
  rw [value_of_polled polled]
  exact after _ rfl

private theorem load_answer_bounds (routed : Routed usesDirect script a) (inUnit : MeterInUnit a) {call : Call}
    (answered : (a.answer script call).1 = .ok (.load x)) :
    x ≤ 1.0 ∧ (InUnit x ↔ usesDirect ∧ call.query = .systemLoad ∨
      ¬ Retreats (a.answer script call).2.sampler.system.previous (a.answer script call).2.sampler.system.current) := by
  have kind := fits_answer routed answered
  obtain ⟨query, now⟩ := call
  cases query with
  | systemTickLoad =>
    obtain ⟨most, within⟩ := systemTickLoad_bounds answered
    exact ⟨most, within.trans (or_iff_right fun contra => Query.noConfusion contra.2).symm⟩
  | systemLoad =>
    cases usesDirect with
    | true =>
      have within := inUnit_systemLoad routed inUnit answered
      exact ⟨within.2, fun _ => .inl ⟨rfl, rfl⟩, fun _ => within⟩
    | false =>
      have unused : a.sampler.meter = none := by simpa using routed.metered
      rw [Stage.answer_systemLoad_of_ticks unused] at answered ⊢
      obtain ⟨most, within⟩ := systemTickLoad_bounds answered
      exact ⟨most, within.trans (or_iff_right fun contra => Bool.noConfusion contra.1).symm⟩
  | _ => cases kind

private theorem loads_answer_bounds (routed : Routed usesDirect script a) {call : Call} {xs : List Float}
    (answered : (a.answer script call).1 = .ok (.loads xs)) :
    List.Forall₂ (fun pair x => x ≤ 1.0 ∧ (InUnit x ↔ ¬ Retreats pair.1 pair.2))
      ((a.answer script call).2.sampler.processors.previous.zip
        (a.answer script call).2.sampler.processors.current) xs := by
  have kind := fits_answer routed answered
  obtain ⟨query, now⟩ := call
  cases query with
  | processorLoads => exact processorLoads_bounds answered
  | _ => cases kind

/-- Whatever a source counts and whenever it is asked: a direct value lies between zero and one, and a busy share is at
    most one and lies between zero and one exactly if the busy counters do not go back between the two generations that
    the store has after the query. -/
theorem answers_in_unit_interval_iff (ready : begin script setup = .ok a) (calls : List Call) (call : Call) :
    let b := (a.run script calls).2
    let left := (b.answer script call).2.sampler
    (∀ x, (b.answer script call).1 = .ok (.load x) → x ≤ 1.0 ∧
      (InUnit x ↔ script.usesDirect setup ∧ call.query = .systemLoad ∨
        ¬ Retreats left.system.previous left.system.current)) ∧
    (∀ xs, (b.answer script call).1 = .ok (.loads xs) →
      List.Forall₂ (fun pair x => x ≤ 1.0 ∧ (InUnit x ↔ ¬ Retreats pair.1 pair.2))
        (left.processors.previous.zip left.processors.current) xs) := by
  have reached : Routed (script.usesDirect setup) script (a.run script calls).2 ∧ MeterInUnit (a.run script calls).2 :=
    run_induction (P := fun b => Routed (script.usesDirect setup) script b ∧ MeterInUnit b)
      (fun _ call before => ⟨routed_answer before.1 call, meterInUnit_answer before.1 before.2 call⟩) calls
      ⟨routed_begin ready, meterInUnit_begin ready⟩
  exact ⟨fun _ => load_answer_bounds reached.1 reached.2, fun _ => loads_answer_bounds reached.1⟩

/-- A source whose busy counters go back by less than its idle ones advance. -/
def retreating : Script where
  name := "retreating"
  cores := 1
  physical := 1
  identity := .ok {}
  rows i := .ok (.list (if i = 0 then [.int 100] else [.int 50, .int 0, .int 0, .int 100]))
  matrices _ := .ok (.list [.list [.int 1]])
  percents := none
  uptime := .ok (.int 0)
  averages _ := .ok []

def everySecond : Setup := ⟨.float 950.0, .float 200.0, false, .float 0.0⟩

theorem answer_of_retreating_at_most_one : ∃ a, begin retreating everySecond = .ok a ∧
    ∀ x, (a.answer retreating ⟨.systemTickLoad, .float 1000.0⟩).1 = .ok (.load x) → x ≤ 1.0 := by
  have ready : begin retreating everySecond = .ok _ := (begin_eq_opened everySecond).trans rfl
  refine ⟨_, ready, ?_⟩
  intro x answered
  exact ((answers_in_unit_interval_iff ready [] ⟨.systemTickLoad, .float 1000.0⟩).1 x answered).1

theorem answer_below_zero : ∃ a x, begin retreating everySecond = .ok a ∧
    (a.answer retreating ⟨.systemTickLoad, .float 1000.0⟩).1 = .ok (.load x) ∧ ¬ InUnit x := by
  have ready : begin retreating everySecond = .ok _ := (begin_eq_opened everySecond).trans rfl
  refine ⟨_, -1.0, ready, ?_, fun within => absurd within.1 (by decide)⟩
  rw [Stage.answer_systemTickLoad]
  rfl

end CpuLoad.UnitInterval
