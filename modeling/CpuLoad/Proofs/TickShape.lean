import CpuLoad.Proofs.TickAccount
import CpuLoad.Proofs.VainRequests

/-!
The shape of what a sampler keeps, over a source that brings rows of integers of any lengths, in matrices of any number
of rows. Of a row it keeps one entry for each state, and of a matrix one row for each processor; what the source does not
give counts as zero (`row_counters`, `matrix_counters`). So the generations have the same shape in every state that a run
reaches, a sample counts by its kept entries alone (`lines_answer`, `grids_answer`), and the busy shares of the
processors are one for each row, unless one of them is too far below zero for a double (`processorLoads_cases`).
-/
namespace CpuLoad.TickShape
open CpuLoad.Binary64 CpuLoad.ExactClock CpuLoad.Lanes CpuLoad.NearestDouble CpuLoad.Outcome CpuLoad.Sampling CpuLoad.Scripted
  CpuLoad.TickAccount CpuLoad.UnitInterval CpuLoad.VainRequests

/-! ### Rows and matrices of integers -/

/-- What is kept of a row: one entry for each state, zero where the row has none. -/
def keptRow (row : List Int) : List Int := Tick.all.map fun t => row.getD t.offset 0

/-- What is kept of a matrix: one row for each of `n` processors, of zeros where the matrix has none. -/
def keptMatrix (n : Nat) (matrix : List (List Int)) : List (List Int) :=
  (List.range n).map fun i => keptRow (matrix.getD i [])

/-- Whether some entry is not zero. -/
def Counts (row : List Int) : Prop := ∃ x ∈ row, x ≠ 0

instance (row : List Int) : Decidable (Counts row) := by
  unfold Counts
  infer_instance

def rawRow (row : List Int) : Value := .list (row.map .int)

/-- A source like another one, but with `n` processors and with rows of integers for its readings of ticks. -/
def counters (rest : Script) (n : Nat) (rows : Nat → List Int) (matrices : Nat → List (List Int)) : Script :=
  { rest with
    cores := n
    rows := fun i => .ok (rawRow (rows i))
    matrices := fun i => .ok (.list ((matrices i).map rawRow)) }

def lines (s : Sampler Value) : List Int × List Int := (s.system.previous.toList, s.system.current.toList)

def grids (s : Sampler Value) : List (List Int) × List (List Int) :=
  (s.processors.previous.map Snapshot.toList, s.processors.current.map Snapshot.toList)

variable {rest : Script} {n : Nat} {rows : Nat → List Int} {matrices : Nat → List (List Int)} {setup : Setup} {a : Stage}
  {usesDirect : Bool}

theorem toList_ofList (row : List Int) : (Snapshot.ofList row).toList = keptRow row := rfl

theorem keptRow_take (row : List Int) : keptRow (row.take Tick.all.length) = keptRow row := by
  refine List.map_congr_left fun t _ => ?_
  have bound : t.offset < Tick.all.length := by cases t <;> decide
  simp [List.getD_eq_getElem?_getD, bound]

theorem eq_of_toList {s t : Snapshot} (same : s.toList = t.toList) : s = t := by
  rw [← Snapshot.ofList_toList s, same, Snapshot.ofList_toList]

theorem ofReading_rawRow (row : List Int) : Snapshot.ofReading (rawRow row) = .ok (Snapshot.ofList row) := by
  have read : ((row.map Value.int).take Tick.all.length).mapM Value.toInt = .ok (row.take Tick.all.length) := by
    rw [mapM_eq_ok_iff, ← List.map_take, List.map_map]
    rfl
  have same : Snapshot.ofList (row.take Tick.all.length) = Snapshot.ofList row := eq_of_toList (keptRow_take row)
  unfold Snapshot.ofReading rawRow
  simp only [Value.entries, bind, Except.bind, read, same]

theorem row_counters (i : Nat) : (counters rest n rows matrices).row i = .ok (Snapshot.ofList (rows i)) :=
  ofReading_rawRow (rows i)

/-- The snapshots that are kept of a matrix. -/
def keptSnapshots (n : Nat) (matrix : List (List Int)) : List Snapshot :=
  (List.range n).map fun i => Snapshot.ofList (matrix.getD i [])

theorem toList_keptSnapshots (n : Nat) (matrix : List (List Int)) :
    (keptSnapshots n matrix).map Snapshot.toList = keptMatrix n matrix := by
  simp [keptSnapshots, keptMatrix, toList_ofList]

/-- Surplus rows are cut off and absent ones are filled in. -/
theorem keptSnapshots_eq (n : Nat) (matrix : List (List Int)) :
    keptSnapshots n matrix =
      (matrix.take n).map Snapshot.ofList ++ List.replicate (n - (matrix.take n).length) .zero := by
  refine List.ext_getElem (by simp [keptSnapshots]) fun i here _ => ?_
  have bound : i < n := by simpa [keptSnapshots] using here
  by_cases given : i < matrix.length
  · simp [keptSnapshots, bound, given]
  · simp [keptSnapshots, given, List.getElem_append]
    rfl

theorem matrix_counters (i : Nat) :
    (counters rest n rows matrices).matrix n i = .ok (keptSnapshots n (matrices i)) := by
  have known : (Source.firstItems n ((matrices i).map rawRow)).mapM Snapshot.ofReading =
      .ok (((matrices i).take n).map Snapshot.ofList) := by
    rw [mapM_eq_ok_iff, Source.firstItems, if_pos (Int.natCast_nonneg n), ← List.map_take, List.map_map, List.map_map]
    exact List.map_congr_left fun row _ => ofReading_rawRow row
  have absent : ((n : Int) - (((matrices i).take n).map Snapshot.ofList).length).toNat =
      n - ((matrices i).take n).length := by
    rw [List.length_map]
    omega
  show Sampler.matrixOf n ((matrices i).map rawRow) = _
  simp only [Sampler.matrixOf, bind, Except.bind, known, pure, Except.pure, absent, keptSnapshots_eq]

/-! ### Which samples are taken over -/

section
variable {σ : Type} {accept : Judgement σ} {threshold now : Value} {readings : Nat → Except Fault σ}
  {store : Store Value σ} {pulled : Nat} {sample : σ} {accepted : Bool}

/-- A store that pulls takes the sample over if it is acceptable, and otherwise it keeps its generations. -/
theorem pair_refreshed (brought : readings pulled = .ok sample) (judged : accept sample = .ok accepted) :
    (refreshed accept threshold now readings store pulled).2.1.pair =
      if (refreshed accept threshold now readings store pulled).2.2 ≠ pulled ∧ accepted then (store.current, sample)
      else store.pair := by
  unfold refreshed
  cases late : store.due threshold now with
  | error e => simp
  | ok due =>
    cases due with
    | false => simp
    | true =>
      cases accepted with
      | false => simp [brought, Store.query_of_reject late judged]
      | true => simp [brought, Store.query_of_accept late judged, Store.pair]

/-- If the clock can be compared, a query fails only if its pull does. -/
theorem refreshed_answers {late : Bool} (compared : store.due threshold now = .ok late)
    (brought : readings pulled = .ok sample) (judged : accept sample = .ok accepted) :
    (refreshed accept threshold now readings store pulled).1 =
      .ok (refreshed accept threshold now readings store pulled).2.1.pair := by
  unfold refreshed
  cases late with
  | false => simp [compared]
  | true =>
    cases accepted with
    | false => simp [compared, brought, Store.query_of_reject compared judged]
    | true => simp [compared, brought, Store.query_of_accept compared judged, Store.pair]

end

theorem isNonzero_iff (s : Snapshot) : s.isNonzero = true ↔ Counts s.toList := by
  simp [Snapshot.isNonzero, Counts]

theorem isUsable_iff (s : List Snapshot) : Sampler.isUsable s = true ↔ ∃ row ∈ s.map Snapshot.toList, Counts row := by
  simp [Sampler.isUsable, isNonzero_iff]

/-- A query leaves the rows of all processors together, unless it asks for their load and pulls a row with a kept entry
other than zero. -/
theorem lines_answer (routed : Routed usesDirect (counters rest n rows matrices) a) (call : Call) :
    let left := (a.answer (counters rest n rows matrices) call).2
    lines left.sampler =
      if figureOf usesDirect call.query = some .system ∧ left.progress.rows ≠ a.progress.rows ∧
        Counts (keptRow (rows a.progress.rows)) then ((lines a.sampler).2, keptRow (rows a.progress.rows))
      else lines a.sampler := by
  intro left
  cases asked : figureOf usesDirect call.query with
  | none => simp [left, sampler_of_no_figure asked]
  | some lane =>
    cases lane with
    | system =>
      let row := Snapshot.ofList (rows a.progress.rows)
      let r := refreshed Sampler.acceptRow a.sampler.threshold call.now (counters rest n rows matrices).row
        a.sampler.system a.progress.rows
      have same : left = ⟨{ a.sampler with system := r.2.1 }, { a.progress with rows := r.2.2, now := call.now }⟩ :=
        congrArg Prod.snd ((answer_of_system_figure routed asked).trans Stage.answer_systemTickLoad)
      have pair : r.2.1.pair = if r.2.2 ≠ a.progress.rows ∧ row.isNonzero then (a.sampler.system.current, row)
        else a.sampler.system.pair := pair_refreshed (row_counters _) rfl
      have shown : lines left.sampler = r.2.1.pair.map Snapshot.toList Snapshot.toList := by rw [same]; rfl
      rw [shown, pair, same]
      simp only [true_and, isNonzero_iff]
      exact apply_ite _ _ _ _
    | processors =>
      have same : left = _ := congrArg Prod.snd ((answer_of_processor_figures asked).trans Stage.answer_processorLoads)
      simp [same, lines]
    | direct =>
      obtain ⟨_, meter, _, same⟩ := answer_of_direct_figure routed asked
      have same : left = _ := congrArg Prod.snd same
      simp [same, lines]

/-- A query leaves the rows of the processors each, unless it asks for their loads and pulls a matrix with a kept entry
other than zero. -/
theorem grids_answer (cores : a.sampler.cores = n) (routed : Routed usesDirect (counters rest n rows matrices) a)
    (call : Call) :
    let left := (a.answer (counters rest n rows matrices) call).2
    let matrix := keptMatrix n (matrices a.progress.matrices)
    grids left.sampler =
      if figureOf usesDirect call.query = some .processors ∧ left.progress.matrices ≠ a.progress.matrices ∧
        ∃ row ∈ matrix, Counts row then ((grids a.sampler).2, matrix)
      else grids a.sampler := by
  intro left matrix
  cases asked : figureOf usesDirect call.query with
  | none => simp [left, sampler_of_no_figure asked]
  | some lane =>
    cases lane with
    | system =>
      have same : left = _ :=
        congrArg Prod.snd ((answer_of_system_figure routed asked).trans Stage.answer_systemTickLoad)
      simp [same, grids]
    | processors =>
      let snapshots := keptSnapshots n (matrices a.progress.matrices)
      let r := refreshed Sampler.acceptMatrix a.sampler.threshold call.now
        ((counters rest n rows matrices).matrix n) a.sampler.processors a.progress.matrices
      have same : left = ⟨{ a.sampler with processors := r.2.1 }, { a.progress with matrices := r.2.2, now := call.now }⟩ := by
        have whole : left = _ := congrArg Prod.snd ((answer_of_processor_figures asked).trans Stage.answer_processorLoads)
        rw [cores] at whole
        exact whole
      have pair : r.2.1.pair = if r.2.2 ≠ a.progress.matrices ∧ Sampler.isUsable snapshots then
        (a.sampler.processors.current, snapshots) else a.sampler.processors.pair :=
        pair_refreshed (matrix_counters _) rfl
      have shown : grids left.sampler = r.2.1.pair.map (List.map Snapshot.toList) (List.map Snapshot.toList) := by
        rw [same]
        rfl
      rw [shown, pair, same]
      simp only [true_and, isUsable_iff, snapshots, toList_keptSnapshots]
      rw [apply_ite (Prod.map (List.map Snapshot.toList) (List.map Snapshot.toList)), Prod.map_apply,
        toList_keptSnapshots]
      rfl
    | direct =>
      obtain ⟨_, meter, _, same⟩ := answer_of_direct_figure routed asked
      have same : left = _ := congrArg Prod.snd same
      simp [same, grids]

/-! ### Clocks -/

/-- A sampler that has its clock readings from one clock. -/
structure Clocked (piece : Timepiece) (s : Sampler Value) : Prop where
  dated : Dated piece s
  polled : ∀ meter ∈ s.meter, piece.Shows meter.polled

/-- A sampler whose limits and clock readings are doubles. -/
structure Ticking (s : Sampler Value) : Prop where
  threshold : ∃ x, s.threshold = .float x
  hold : ∃ x, s.hold = .float x
  dated : Dated .doubles s
  polled : ∀ meter ∈ s.meter, ∃ x, meter.polled = .float x

theorem polled_or_now {hold now : Value} {readings : Nat → Except Fault (Option Float)} {meter : Meter Value} {count : Nat} :
    (polled hold now readings meter count).2.1.polled = meter.polled ∨
      (polled hold now readings meter count).2.1.polled = now := by
  unfold polled Meter.query
  cases meter.due hold now with
  | error e => exact .inl rfl
  | ok due =>
    cases due with
    | false => exact .inl rfl
    | true =>
      cases readings count with
      | error e => exact .inl rfl
      | ok reading => exact .inr rfl

variable {script : Script} {piece : Timepiece}

theorem clocked_answer (routed : Routed usesDirect script a) (clocked : Clocked piece a.sampler) {call : Call}
    (shows : piece.Shows call.now) : Clocked piece (a.answer script call).2.sampler := by
  refine ⟨fun lane t known => ?_, fun meter used => ?_⟩
  · rcases refreshedOf_answer routed call with same | new
    · exact clocked.dated lane t (by rw [← same]; exact known)
    · obtain rfl := Option.some.inj (new.symm.trans known)
      exact shows
  · cases asked : figureOf usesDirect call.query with
    | none =>
      rw [sampler_of_no_figure asked] at used
      exact clocked.polled meter used
    | some lane =>
      cases lane with
      | system =>
        rw [answer_of_system_figure routed asked, Stage.answer_systemTickLoad] at used
        exact clocked.polled meter used
      | processors =>
        rw [answer_of_processor_figures asked, Stage.answer_processorLoads] at used
        exact clocked.polled meter used
      | direct =>
        obtain ⟨_, before, known, same⟩ := answer_of_direct_figure routed asked
        rw [same] at used
        obtain rfl := Option.some.inj used
        rcases polled_or_now with old | new
        · rw [old]
          exact clocked.polled before known
        · rw [new]
          exact shows

theorem clocked_run (routed : Routed usesDirect script a) (clocked : Clocked piece a.sampler) {calls : List Call}
    (shown : ∀ call ∈ calls, piece.Shows call.now) : Clocked piece (a.run script calls).2.sampler := by
  induction calls generalizing a with
  | nil => exact clocked
  | cons call calls ih =>
    have ⟨first, later⟩ := List.forall_mem_cons.mp shown
    exact ih (routed_answer routed call) (clocked_answer routed clocked first) later

theorem clocked_begin (ready : begin script setup = .ok a) (shows : piece.Shows setup.now) : Clocked piece a.sampler := by
  have dated : Dated piece a.sampler := dated_begin ready shows
  obtain ⟨identity, row, first, meter, _, _, _, started, rfl⟩ := begin_eq_ok_iff.mp ready
  refine ⟨dated, fun meter used => ?_⟩
  obtain rfl : _ = some meter := used
  unfold Script.firstMeter at started
  split at started
  · obtain ⟨reading, _, same⟩ := eq_ok_of_map started
    obtain rfl := Option.some.inj same
    exact shows
  · cases started

theorem ticking_answer (routed : Routed usesDirect script a) (ticking : Ticking a.sampler) {call : Call}
    (double : ∃ x, call.now = .float x) : Ticking (a.answer script call).2.sampler := by
  have keeps := keeps_answer routed call
  have clocked : Clocked .doubles a.sampler := ⟨ticking.dated, ticking.polled⟩
  have ⟨dated, polled⟩ := clocked_answer routed clocked double
  refine ⟨?_, ?_, dated, polled⟩
  · rw [keeps.threshold]
    exact ticking.threshold
  · rw [keeps.hold]
    exact ticking.hold

/-- A run at doubles. -/
structure Timed (setup : Setup) (calls : List Call) : Prop where
  threshold : ∃ x, setup.threshold = .float x
  hold : ∃ x, setup.hold = .float x
  start : ∃ x, setup.now = .float x
  calls : ∀ call ∈ calls, ∃ x, call.now = .float x

theorem ticking_begin {calls : List Call} (ready : begin script setup = .ok a) (timed : Timed setup calls) :
    Ticking a.sampler := by
  have clocked : Clocked .doubles a.sampler := clocked_begin ready timed.start
  obtain ⟨identity, row, first, meter, _, _, _, _, rfl⟩ := begin_eq_ok_iff.mp ready
  exact ⟨timed.threshold, timed.hold, clocked.dated, clocked.polled⟩

section
variable {limit now since : Value}

/-- Two readings of one clock can be subtracted. -/
theorem exists_minus (current : piece.Shows now) (past : piece.Shows since) :
    ∃ difference n, now.minus since = .ok difference ∧ Number.ofValue difference = .ok n := by
  cases piece with
  | doubles =>
    obtain ⟨x, rfl⟩ := current
    obtain ⟨z, rfl⟩ := past
    exact ⟨.float (x - z), .float (x - z), rfl, rfl⟩
  | exact readings isExact =>
    obtain ⟨difference, subtracted, known⟩ := isExact now current.1 since past.1
    obtain ⟨n, number, _⟩ := place_of_rational known
    exact ⟨difference, n, subtracted, number⟩

theorem exists_isLess {v w : Value} (left : ∃ n, Number.ofValue v = .ok n) (right : ∃ n, Number.ofValue w = .ok n) :
    ∃ less, v.isLess w = .ok less := by
  obtain ⟨m, left⟩ := left
  obtain ⟨n, right⟩ := right
  unfold Value.isLess
  rw [left, right]
  exact ⟨_, rfl⟩

theorem exists_store_due {σ : Type} {store : Store Value σ} (limited : ∃ n, Number.ofValue limit = .ok n)
    (shows : piece.Shows now) (dated : ∀ t ∈ store.refreshed, piece.Shows t) :
    ∃ late, store.due limit now = .ok late := by
  unfold Store.due refreshDue
  cases refreshed : store.refreshed with
  | none => exact ⟨true, rfl⟩
  | some t =>
    obtain ⟨difference, n, subtracted, number⟩ := exists_minus shows (dated t refreshed)
    dsimp only
    rw [exceeds_eq_isLess subtracted]
    exact exists_isLess limited ⟨n, number⟩

theorem exists_meter_due {meter : Meter Value} (limited : ∃ n, Number.ofValue limit = .ok n) (shows : piece.Shows now)
    (past : piece.Shows meter.polled) : ∃ late, meter.due limit now = .ok late := by
  obtain ⟨difference, n, subtracted, number⟩ := exists_minus shows past
  obtain ⟨within, compared⟩ := exists_isLess ⟨n, number⟩ limited
  unfold Meter.due
  refine ⟨!within, ?_⟩
  show Except.map (!·) (do (← now.minus meter.polled).isLess limit) = _
  rw [subtracted]
  show Except.map (!·) (difference.isLess limit) = _
  rw [compared]
  rfl

theorem number_of_double {v : Value} (double : ∃ x, v = .float x) : ∃ n, Number.ofValue v = .ok n := by
  obtain ⟨x, rfl⟩ := double
  exact ⟨.float x, rfl⟩

end

/-! ### Busy shares -/

/-- The busy share is too far below zero for a double. -/
def TooLow (previous current : Snapshot) : Prop := previous.share current ≤ -((2 ^ 1024 - 2 ^ 970 : Nat) : Rat)

variable {previous current : Snapshot} {e : Fault}

theorem load_error_iff : previous.load current = .error e ↔ TooLow previous current ∧ e = .tooLarge := by
  have reach : nearest? (previous.share current) = none ↔ TooLow previous current := by
    have large : (1 : Rat) < ((2 ^ 1024 - 2 ^ 970 : Nat) : Rat) := by
      exact_mod_cast (by decide +kernel : 1 < 2 ^ 1024 - 2 ^ 970)
    rw [nearest_eq_none_iff, le_abs, TooLow, le_neg]
    exact or_iff_right (not_le.mpr (lt_of_le_of_lt share_le_one large))
  unfold Snapshot.load
  cases nearest : nearest? (previous.share current) with
  | none => simp [reach.mp nearest, eq_comm]
  | some x =>
    have within : ¬ TooLow previous current := fun low => by simp [reach.mpr low] at nearest
    simp [within]

theorem error_of_mapM {α β : Type} {f : α → Except Fault β} {xs : List α} (failed : xs.mapM f = .error e) :
    ∃ x ∈ xs, f x = .error e := by
  induction xs with
  | nil => cases failed
  | cons x xs ih =>
    rw [List.mapM_cons] at failed
    cases first : f x with
    | error e' =>
      rw [first] at failed
      cases failed
      exact ⟨x, List.mem_cons_self .., first⟩
    | ok y =>
      cases later : xs.mapM f with
      | error e' =>
        rw [first, later] at failed
        cases failed
        obtain ⟨z, member, found⟩ := ih later
        exact ⟨z, List.mem_cons_of_mem _ member, found⟩
      | ok ys =>
        rw [first, later] at failed
        cases failed

/-- The rows of a processor in the two generations. -/
def rowsAt (s : Sampler Value) (i : Nat) : Snapshot × Snapshot := (Series.processor i).pair s

theorem length_zip {left : Sampler Value} (sized : Sized n left) :
    (left.processors.previous.zip left.processors.current).length = n := by
  have previous : left.processors.previous.length = n := by exact_mod_cast sized.previous
  have current : left.processors.current.length = n := by exact_mod_cast sized.current
  rw [List.length_zip, previous, current, min_self]

theorem getElem_zip {i : Nat} {left : Sampler Value} (sized : Sized n left) (bound : i < n) :
    (left.processors.previous.zip left.processors.current)[i]? = some (rowsAt left i) := by
  have previous : left.processors.previous.length = n := by exact_mod_cast sized.previous
  have current : left.processors.current.length = n := by exact_mod_cast sized.current
  rw [List.getElem?_zip_eq_some]
  simp [rowsAt, Series.pair, Series.rowAt, previous, current, bound]

/-- There is one busy share for each processor, taken from its own rows, unless one of them is too low. -/
theorem loads_cases {left : Sampler Value} (sized : Sized n left) :
    ((∀ i < n, ¬ TooLow (rowsAt left i).1 (rowsAt left i).2) ∧ ∃ xs, Sampler.loads left.processors.pair = .ok xs ∧
      xs.length = n ∧ ∀ i < n, xs[i]? = nearest? ((rowsAt left i).1.share (rowsAt left i).2)) ∨
    ((∃ i < n, TooLow (rowsAt left i).1 (rowsAt left i).2) ∧ Sampler.loads left.processors.pair = .error .tooLarge) := by
  cases answered : Sampler.loads left.processors.pair with
  | error e =>
    obtain ⟨pair, member, failed⟩ := error_of_mapM answered
    obtain ⟨i, place⟩ := List.mem_iff_getElem?.mp member
    have bound : i < n := by
      rw [← length_zip sized]
      exact (List.getElem?_eq_some_iff.mp place).1
    obtain rfl := Option.some.inj ((getElem_zip sized bound).symm.trans place)
    obtain ⟨low, rfl⟩ := load_error_iff.mp failed
    exact .inr ⟨⟨i, bound, low⟩, rfl⟩
  | ok xs =>
    have each : (left.processors.previous.zip left.processors.current).map (fun pair => pair.1.load pair.2) = xs.map .ok :=
      mapM_eq_ok_iff.mp answered
    have share (i : Nat) (bound : i < n) : ∃ x, xs[i]? = some x ∧ (rowsAt left i).1.load (rowsAt left i).2 = .ok x := by
      have here := congrArg (fun ys => ys[i]?) each
      simp only [List.getElem?_map, getElem_zip sized bound, Option.map_some] at here
      obtain ⟨x, found, same⟩ := Option.map_eq_some_iff.mp here.symm
      exact ⟨x, found, same.symm⟩
    refine .inl ⟨fun i bound low => ?_, xs, rfl, ?_, fun i bound => ?_⟩
    · obtain ⟨x, _, loaded⟩ := share i bound
      rw [load_error_iff.mpr ⟨low, rfl⟩] at loaded
      cases loaded
    · simpa [length_zip sized] using (congrArg List.length each).symm
    · obtain ⟨x, found, loaded⟩ := share i bound
      rw [found, nearest_of_load loaded]

/-! ### Answers -/

/-- The load of all processors together is answered from the generations that the query leaves. -/
theorem systemTickLoad_counters (ticking : Ticking a.sampler) {now : Value} (double : ∃ x, now = .float x) :
    let result := a.answer (counters rest n rows matrices) ⟨.systemTickLoad, now⟩
    result.1 = report result.2.sampler .system := by
  let r := refreshed Sampler.acceptRow a.sampler.threshold now (counters rest n rows matrices).row
    a.sampler.system a.progress.rows
  have shows : Timepiece.doubles.Shows now := double
  obtain ⟨late, compared⟩ : ∃ late, a.sampler.system.due a.sampler.threshold now = .ok late :=
    exists_store_due (number_of_double ticking.threshold) shows (ticking.dated .system)
  have answered : r.1 = .ok r.2.1.pair := refreshed_answers compared (row_counters _) rfl
  intro result
  have same : result = _ := Stage.answer_systemTickLoad
  rw [same]
  exact congrArg (fun pair => (pair.bind fun pair => pair.1.load pair.2).map Answer.load) answered

theorem processorLoads_counters (cores : a.sampler.cores = n) (ticking : Ticking a.sampler) {now : Value}
    (double : ∃ x, now = .float x) :
    let result := a.answer (counters rest n rows matrices) ⟨.processorLoads, now⟩
    result.1 = report result.2.sampler .processors := by
  let r := refreshed Sampler.acceptMatrix a.sampler.threshold now
    ((counters rest n rows matrices).matrix n) a.sampler.processors a.progress.matrices
  have shows : Timepiece.doubles.Shows now := double
  obtain ⟨late, compared⟩ : ∃ late, a.sampler.processors.due a.sampler.threshold now = .ok late :=
    exists_store_due (number_of_double ticking.threshold) shows (ticking.dated .processors)
  have answered : r.1 = .ok r.2.1.pair := refreshed_answers compared (matrix_counters _) rfl
  intro result
  have same : result = _ := Stage.answer_processorLoads
  rw [same, cores]
  exact congrArg (fun pair => (pair.bind Sampler.loads).map Answer.loads) answered

theorem processorLoads_cases (routed : Routed usesDirect (counters rest n rows matrices) a) (sized : Sized n a.sampler)
    (ticking : Ticking a.sampler) (x : Float) :
    let result := a.answer (counters rest n rows matrices) ⟨.processorLoads, .float x⟩
    let pairAt := rowsAt result.2.sampler
    ((∀ i < n, ¬ TooLow (pairAt i).1 (pairAt i).2) ∧ ∃ xs, result.1 = .ok (.loads xs) ∧ xs.length = n ∧
      ∀ i < n, xs[i]? = nearest? ((pairAt i).1.share (pairAt i).2)) ∨
    ((∃ i < n, TooLow (pairAt i).1 (pairAt i).2) ∧ result.1 = .error .tooLarge) := by
  intro result pairAt
  have answered : result.1 = report result.2.sampler .processors := processorLoads_counters sized.cores ticking ⟨x, rfl⟩
  rcases loads_cases (sized_answer (Int.natCast_nonneg n) routed sized ⟨.processorLoads, .float x⟩) with
    ⟨high, xs, loads, each⟩ | ⟨low, failed⟩
  · exact .inl ⟨high, xs, answered.trans (congrArg (Except.map Answer.loads) loads), each⟩
  · exact .inr ⟨low, answered.trans (congrArg (Except.map Answer.loads) failed)⟩

/-- An answer, or a fault other than that of an entry that is not there. -/
def InRange {α : Type} (answer : Except Fault α) : Prop := answer ≠ .error .missingEntry

theorem inRange_map {α β : Type} {f : α → β} {answer : Except Fault α} (inRange : InRange answer) :
    InRange (answer.map f) := by
  cases answer with
  | error e => exact fun contra => inRange (congrArg Except.error (Except.error.inj contra))
  | ok x => exact nofun

theorem inRange_bind {α β : Type} {f : α → Except Fault β} {answer : Except Fault α} (inRange : InRange answer)
    (each : ∀ x, InRange (f x)) : InRange (answer.bind f) := by
  cases answer with
  | error e => exact fun contra => inRange (congrArg Except.error (Except.error.inj contra))
  | ok x => exact each x

theorem inRange_load : InRange (previous.load current) := fun contra => by
  cases (load_error_iff.mp contra).2

theorem inRange_loads (pair : List Snapshot × List Snapshot) : InRange (Sampler.loads pair) := fun contra => by
  obtain ⟨_, _, failed⟩ := error_of_mapM contra
  exact inRange_load failed

theorem inRange_ofValue (v : Value) : InRange (Number.ofValue v) := by
  cases v <;> exact nofun

theorem inRange_isAverageCount (count : Value) : InRange (Source.isAverageCount count) :=
  inRange_bind (inRange_ofValue count) fun _ => nofun

theorem inRange_toFloat (n : Number) : InRange n.toFloat := by
  cases n with
  | float x => exact nofun
  | int n =>
    show InRange (((ofInt? n).map Except.ok).getD (.error .tooLarge))
    cases ofInt? n <;> exact nofun

theorem inRange_percentOf (v : Value) : InRange (Meter.percentOf v) := by
  have read : InRange (Number.ofValue v >>= fun n => n.toFloat >>= fun x => pure (some x)) :=
    inRange_bind (inRange_ofValue v) fun n => inRange_bind (inRange_toFloat n) fun _ => nofun
  cases v with
  | null => exact nofun
  | _ => exact read

/-- A source that does not itself report an entry that is not there. -/
structure Honest (rest : Script) : Prop where
  percents : ∀ percents ∈ rest.percents, ∀ i, InRange (percents i)
  averages : ∀ count, InRange (rest.averages count)
  uptime : InRange rest.uptime

theorem inRange_percent (honest : Honest rest) (i : Nat) : InRange ((counters rest n rows matrices).percent i) := by
  unfold Script.percent counters
  cases given : rest.percents with
  | none => exact nofun
  | some percents => exact inRange_bind (honest.percents percents given i) inRange_percentOf

theorem inRange_polled {hold now : Value} {readings : Nat → Except Fault (Option Float)} {meter : Meter Value} {count : Nat}
    (due : InRange (meter.due hold now)) (each : InRange (readings count)) :
    InRange (polled hold now readings meter count).1 := by
  unfold polled Meter.query
  cases late : meter.due hold now with
  | error e => exact fun contra => due (late.trans (congrArg Except.error (Except.error.inj contra)))
  | ok due =>
    cases due with
    | false => exact nofun
    | true =>
      cases brought : readings count with
      | error e => exact fun contra => each (brought.trans (congrArg Except.error (Except.error.inj contra)))
      | ok reading => exact nofun

/-- No query looks for an entry that is not there. -/
theorem inRange_answer (honest : Honest rest) (cores : a.sampler.cores = n)
    (routed : Routed usesDirect (counters rest n rows matrices) a) (ticking : Ticking a.sampler) {call : Call}
    (double : ∃ x, call.now = .float x) : InRange (a.answer (counters rest n rows matrices) call).1 := by
  obtain ⟨query, now⟩ := call
  have tickLoad : InRange (a.answer (counters rest n rows matrices) ⟨.systemTickLoad, now⟩).1 := by
    rw [systemTickLoad_counters ticking double]
    exact inRange_map inRange_load
  cases query with
  | systemTickLoad => exact tickLoad
  | processorLoads =>
    rw [processorLoads_counters cores ticking double]
    exact inRange_map (inRange_loads _)
  | systemTicks =>
    rw [Stage.answer_systemTicks, row_counters]
    exact nofun
  | processorTicks =>
    rw [Stage.answer_processorTicks, cores, matrix_counters]
    exact nofun
  | averages count =>
    rw [Stage.answer_averages]
    refine inRange_map (inRange_bind (inRange_isAverageCount count) fun asked => ?_)
    cases asked with
    | true => exact honest.averages count
    | false => exact nofun
  | uptime =>
    rw [Stage.answer_uptime]
    exact inRange_map honest.uptime
  | systemLoad =>
    rcases answer_systemLoad_cases routed now with ⟨_, _, same⟩ | ⟨_, meter, used, same⟩
    · rw [same]
      exact tickLoad
    · rw [same]
      obtain ⟨l, limit⟩ := ticking.hold
      obtain ⟨z, last⟩ := ticking.polled meter used
      obtain ⟨x, rfl⟩ := double
      have due : InRange (meter.due a.sampler.hold (.float x)) := by
        rw [Meter.due, limit, last]
        exact nofun
      exact inRange_map (inRange_polled due (inRange_percent honest _))

/-! ### Runs -/

/-- Exactly `n` rows with exactly one entry for each state. -/
def IsGrid (n : Nat) (grid : List (List Int)) : Prop := grid.length = n ∧ ∀ row ∈ grid, row.length = Tick.all.length

theorem isGrid_toList {snapshots : List Snapshot} (length : (snapshots.length : Int) = n) :
    IsGrid n (snapshots.map Snapshot.toList) := by
  refine ⟨?_, fun row member => ?_⟩
  · rw [List.length_map]
    exact_mod_cast length
  · obtain ⟨snapshot, _, rfl⟩ := List.mem_map.mp member
    exact Snapshot.length_toList snapshot

structure Shaped (n : Nat) (s : Sampler Value) : Prop where
  lines : (lines s).1.length = Tick.all.length ∧ (lines s).2.length = Tick.all.length
  grids : IsGrid n (grids s).1 ∧ IsGrid n (grids s).2

theorem shaped_of_sized {s : Sampler Value} (sized : Sized n s) : Shaped n s :=
  ⟨⟨rfl, rfl⟩, isGrid_toList sized.previous, isGrid_toList sized.current⟩

theorem keptRow_of_not_counts {row : List Int} (zero : ¬ Counts (keptRow row)) : keptRow row = keptRow [] := by
  have blank : keptRow [] = List.replicate Tick.all.length 0 := rfl
  rw [blank]
  exact List.eq_replicate_iff.mpr ⟨rfl, fun x member => by_contra fun other => zero ⟨x, member, other⟩⟩

/-- The first samples are both generations. One that is rejected is zero, as they are then. -/
theorem first_generations (ready : begin (counters rest n rows matrices) setup = .ok a) :
    lines a.sampler = (keptRow (rows 0), keptRow (rows 0)) ∧
      grids a.sampler = (keptMatrix n (matrices 0), keptMatrix n (matrices 0)) := by
  obtain ⟨identity, row, snapshots, meter, _, first, second, _, rfl⟩ := begin_eq_ok_iff.mp ready
  obtain rfl := Except.ok.inj ((row_counters _).symm.trans first)
  obtain rfl := Except.ok.inj ((matrix_counters _).symm.trans second)
  constructor
  · unfold lines
    rw [Script.system_firstStage]
    split
    · rfl
    · next zero =>
      rw [isNonzero_iff, toList_ofList] at zero
      rw [keptRow_of_not_counts zero]
      rfl
  · unfold grids
    rw [Script.processors_firstStage]
    split
    · rw [← toList_keptSnapshots]
    · next zero =>
      rw [isUsable_iff, toList_keptSnapshots] at zero
      have blank : keptMatrix n (matrices 0) = List.replicate n (keptRow []) := by
        refine List.eq_replicate_iff.mpr ⟨by simp [keptMatrix], fun row member => ?_⟩
        obtain ⟨i, _, rfl⟩ := List.mem_map.mp member
        exact keptRow_of_not_counts fun counts => zero ⟨_, member, counts⟩
      rw [blank]
      simp [Store.start, counters, keptRow, Snapshot.toList, Snapshot.zero, Tick.all]

theorem ticking_run (routed : Routed usesDirect script a) (ticking : Ticking a.sampler) {calls : List Call}
    (doubles : ∀ call ∈ calls, ∃ x, call.now = .float x) : Ticking (a.run script calls).2.sampler := by
  induction calls generalizing a with
  | nil => exact ticking
  | cons call calls ih =>
    have ⟨first, later⟩ := List.forall_mem_cons.mp doubles
    exact ih (routed_answer routed call) (ticking_answer routed ticking first) later

/-- Over a source with rows of integers, every run of queries leaves generations of the one shape. The first samples are
both generations. A query that asks for a load and pulls moves the generations on exactly if a kept entry of what it
pulled is not zero, and nothing else changes them. At doubles, the loads of the processors are one for each, from its own
rows, or none at all if one of them is too low, and no query looks for an entry that is not there. -/
theorem generations_keep_their_shape (ready : begin (counters rest n rows matrices) setup = .ok a) (calls : List Call) :
    let script := counters rest n rows matrices
    let b := (a.run script calls).2
    Shaped n b.sampler ∧
    lines a.sampler = (keptRow (rows 0), keptRow (rows 0)) ∧
    grids a.sampler = (keptMatrix n (matrices 0), keptMatrix n (matrices 0)) ∧
    (∀ call, let left := (b.answer script call).2
      let line := keptRow (rows b.progress.rows)
      let grid := keptMatrix n (matrices b.progress.matrices)
      let asked := figureOf (script.usesDirect setup) call.query
      lines left.sampler =
          (if asked = some .system ∧ left.progress.rows ≠ b.progress.rows ∧ Counts line then
            ((lines b.sampler).2, line) else lines b.sampler) ∧
        grids left.sampler =
          (if asked = some .processors ∧ left.progress.matrices ≠ b.progress.matrices ∧ ∃ row ∈ grid, Counts row then
            ((grids b.sampler).2, grid) else grids b.sampler)) ∧
    (Timed setup calls → ∀ x : Float,
      let result := b.answer script ⟨.processorLoads, .float x⟩
      let pairAt := rowsAt result.2.sampler
      ((∀ i < n, ¬ TooLow (pairAt i).1 (pairAt i).2) ∧ ∃ xs, result.1 = .ok (.loads xs) ∧ xs.length = n ∧
        ∀ i < n, xs[i]? = nearest? ((pairAt i).1.share (pairAt i).2)) ∨
      ((∃ i < n, TooLow (pairAt i).1 (pairAt i).2) ∧ result.1 = .error .tooLarge)) ∧
    (Timed setup calls → Honest rest → ∀ query, ∀ x : Float, InRange (b.answer script ⟨query, .float x⟩).1) := by
  intro script b
  have routed : Routed (script.usesDirect setup) script a := routed_begin ready
  have sized : Sized n a.sampler := sized_begin ready (Int.natCast_nonneg n)
  obtain ⟨reached, kept⟩ : Routed (script.usesDirect setup) script b ∧ Sized n b.sampler :=
    run_induction (P := fun b => Routed (script.usesDirect setup) script b ∧ Sized n b.sampler)
      (fun _ call before => ⟨routed_answer before.1 call, sized_answer (Int.natCast_nonneg n) before.1 before.2 call⟩) calls
      ⟨routed, sized⟩
  have ticking (timed : Timed setup calls) : Ticking b.sampler :=
    ticking_run routed (ticking_begin ready timed) timed.calls
  refine ⟨shaped_of_sized kept, (first_generations ready).1, (first_generations ready).2, fun call => ?_, ?_, ?_⟩
  · exact ⟨lines_answer reached call, grids_answer kept.cores reached call⟩
  · exact fun timed => processorLoads_cases reached kept (ticking timed)
  · exact fun timed honest query x => inRange_answer honest kept.cores reached (ticking timed) ⟨x, rfl⟩

/-- Two processors, of which the second one has no row at first, and then one without a tick in any state. -/
def ragged : Script :=
  counters counting 2 (fun _ => [1]) fun i =>
    if i = 0 then [[1, 2, 3, 4, 5, 6, 7, 8]] else [[9, 9, 9, 9], [0, 0, 0, 0, 0, 0, 0, 8], [7]]

theorem generations_keep_their_shape_ragged : ∃ a, begin ragged everySecond = .ok a ∧
    let result := a.answer ragged ⟨.processorLoads, .float 1000.0⟩
    grids result.2.sampler =
      ([[1, 2, 3, 4, 5, 6, 7], [0, 0, 0, 0, 0, 0, 0]], [[9, 9, 9, 9, 0, 0, 0], [0, 0, 0, 0, 0, 0, 0]]) ∧
    (∃ xs, result.1 = .ok (.loads xs) ∧ xs.length = 2) ∧ InRange result.1 := by
  have ready : begin ragged everySecond = .ok _ := (begin_eq_opened everySecond).trans rfl
  have ⟨_, _, first, step, answers, inRange⟩ := generations_keep_their_shape ready []
  have timed : Timed everySecond [] := ⟨⟨_, rfl⟩, ⟨_, rfl⟩, ⟨_, rfl⟩, by simp⟩
  have honest : Honest counting := ⟨by simp [counting], fun _ => nofun, nofun⟩
  refine ⟨_, ready, ?_, ?_, inRange timed honest .processorLoads 1000.0⟩
  · refine (step ⟨.processorLoads, .float 1000.0⟩).2.trans ((if_pos ⟨rfl, ?_, by decide⟩).trans rfl)
    rw [Stage.answer_processorLoads]
    decide
  · rcases answers timed 1000.0 with ⟨_, xs, answered, length, _⟩ | ⟨_, failed⟩
    · exact ⟨xs, answered, length⟩
    · rw [Stage.answer_processorLoads] at failed
      cases failed

/-- A source whose counters are as large as it takes for the busy share of its processor to lie beyond the doubles. -/
def overflowing : Script :=
  counters counting 1 (fun _ => [1]) fun i => if i = 0 then [[10 ^ 400]] else [[1, 0, 0, 10 ^ 400]]

theorem no_loads_of_overflowing : ∃ a, begin overflowing everySecond = .ok a ∧
    (a.answer overflowing ⟨.processorLoads, .float 1000.0⟩).1 = .error .tooLarge := by
  have ready : begin overflowing everySecond = .ok _ := (begin_eq_opened everySecond).trans rfl
  have ticking := ticking_begin ready (@Timed.mk everySecond [] ⟨_, rfl⟩ ⟨_, rfl⟩ ⟨_, rfl⟩ (by simp))
  refine ⟨_, ready, ?_⟩
  rcases processorLoads_cases (routed_begin ready) (sized_begin ready Int.one_nonneg) ticking 1000.0 with
    ⟨high, _⟩ | ⟨_, failed⟩
  · exact absurd (by unfold TooLow; decide +kernel) (high 0 one_pos)
  · exact failed

end CpuLoad.TickShape
