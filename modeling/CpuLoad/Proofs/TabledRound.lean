import CpuLoad.Proofs.FixedPlaces
import CpuLoad.Proofs.LoadAverages
import CpuLoad.Proofs.Thresholds
import CpuLoad.Proofs.TickShape

/-!
The two ways to look at one round, as a batch and as a table. A batch asks for the busy share of all processors together
even if the total is that share already, and a table does not. But a store that took a sample is not due again at the
same clock reading, so asking twice answers the same and changes nothing (`repeats_of_counting`). A table is then what
the queries of a batch answer, in another form (`outcome_tableAt`), and both are read off the generations and the direct
value that the queries leave (`answer_figuresAt`).
-/
namespace CpuLoad.TabledRound
open CpuLoad.CollectedBatch CpuLoad.Collector CpuLoad.ExactClock CpuLoad.FixedPlaces CpuLoad.LoadAverages CpuLoad.Outcome
  CpuLoad.Sampling CpuLoad.Scripted CpuLoad.TickShape CpuLoad.VainRequests

/-! ### Figures of a round -/

/-- The figures that a sampler has after its queries for loads: the shares between its generations, and for the total its
direct value if it has one. -/
def figuresOf (time : Value) (left : Sampler Value) : Except Fault Figures := do
  let ticks ← left.system.previous.load left.system.current
  let loads ← Sampler.loads left.processors.pair
  return ⟨time, (left.meter.map Meter.value).getD ticks, ticks, loads⟩

/-- Some share between the generations is too far below zero for a double. -/
def Overflows (left : Sampler Value) : Prop :=
  TooLow left.system.previous left.system.current ∨
    ∃ pair ∈ left.processors.previous.zip left.processors.current, TooLow pair.1 pair.2

/-- The rows of a table, with one for the share between ticks if the total is a direct value. -/
def rowsOf (f : Figures) (usesDirect : Bool) : List (List String) :=
  tableRow "total" f.total :: (if usesDirect then [tableRow "total (ticks)" f.ticks] else []) ++
    f.loads.zipIdx.map fun (load, i) => tableRow ("cpu" ++ indexText i) load

/-- The samples of a batch that have a row in a table. -/
def tabledOf (f : Figures) (usesDirect : Bool) : List Sample :=
  totalSample f.time f.total :: (if usesDirect then [ticksSample f.time f.ticks] else []) ++
    processorSamples f.time f.loads

/-- The name that the row of a sample has, by the name and the labels of the sample. -/
inductive Names : String → Value → Value → Prop
  | total : Names "total" (.text "system.cpu.load_ratio") (processorLabels "total")
  | ticks : Names "total (ticks)" (.text "system.cpu.load_ratio_ticks") (processorLabels "total")
  | processor (i : Nat) : Names ("cpu" ++ indexText i) (.text "system.cpu.load_ratio") (processorLabels (indexText i))

/-- Whether a row shows a sample: it has a name that is the sample's, and a cell that says the sample's value. -/
def Shows (row : List String) (s : Sample) : Prop :=
  ∃ name cell load, row = [name, cell] ∧ Names name s.name s.labels ∧ s.value = .float load ∧ IsCell load cell

variable {f : Figures} {left : Sampler Value} {time : Value} {e : Fault}

theorem shows_tableRow {name : String} {load : Float} {s : Sample} (named : Names name s.name s.labels)
    (value : s.value = .float load) : Shows (tableRow name load) s :=
  ⟨name, _, load, rfl, named, value, isCell_percentText load⟩

theorem shows_rowsOf (f : Figures) (usesDirect : Bool) :
    List.Forall₂ Shows (rowsOf f usesDirect) (tabledOf f usesDirect) := by
  have each : List.Forall₂ Shows (f.loads.zipIdx.map fun (load, i) => tableRow ("cpu" ++ indexText i) load)
      (processorSamples f.time f.loads) := by
    unfold processorSamples
    rw [List.forall₂_map_left_iff, List.forall₂_map_right_iff, List.forall₂_same]
    exact fun (_, i) _ => shows_tableRow (.processor i) rfl
  have total : Shows (tableRow "total" f.total) (totalSample f.time f.total) := shows_tableRow .total rfl
  have ticks : Shows (tableRow "total (ticks)" f.ticks) (ticksSample f.time f.ticks) := shows_tableRow .ticks rfl
  cases usesDirect with
  | true => exact .cons total (.cons ticks each)
  | false => exact .cons total each

theorem figuresOf_eq_error_iff : figuresOf time left = .error e ↔ e = .tooLarge ∧ Overflows left := by
  unfold figuresOf Overflows
  cases ticks : left.system.previous.load left.system.current with
  | error e' =>
    obtain ⟨low, rfl⟩ := load_error_iff.mp ticks
    refine Iff.trans ?_ (and_iff_left (.inl low)).symm
    exact ⟨fun same => (Except.error.inj same).symm, fun same => congrArg Except.error same.symm⟩
  | ok x =>
    have high : ¬ TooLow left.system.previous left.system.current := fun low => by
      rw [load_error_iff.mpr ⟨low, rfl⟩] at ticks
      cases ticks
    cases loads : Sampler.loads left.processors.pair with
    | error e' =>
      obtain ⟨pair, member, failed⟩ := error_of_mapM loads
      obtain ⟨low, rfl⟩ := load_error_iff.mp failed
      refine Iff.trans ?_ (and_iff_left (.inr ⟨pair, member, low⟩)).symm
      exact ⟨fun same => (Except.error.inj same).symm, fun same => congrArg Except.error same.symm⟩
    | ok xs =>
      refine iff_of_false nofun ?_
      rintro ⟨_, low | ⟨pair, member, low⟩⟩
      · exact high low
      · have failed : pair.1.load pair.2 = .error .tooLarge := load_error_iff.mpr ⟨low, rfl⟩
        have known : pair.1.load pair.2 ∈ xs.map (Except.ok (ε := Fault)) := by
          rw [← mapM_eq_ok_iff.mp loads]
          exact List.mem_map_of_mem (f := fun pair : Snapshot × Snapshot => pair.1.load pair.2) member
        obtain ⟨y, _, same⟩ := List.mem_map.mp known
        rw [failed] at same
        cases same

theorem figuresOf_eq_ok (answered : figuresOf time left = .ok f) :
    f.time = time ∧ f.total = (left.meter.map Meter.value).getD f.ticks := by
  obtain ⟨ticks, _, answered⟩ := eq_ok_of_bind answered
  obtain ⟨loads, _, answered⟩ := eq_ok_of_bind answered
  cases answered
  exact ⟨rfl, rfl⟩

/-! ### A round at one clock reading -/

/-- The clocks of a round: neither moves while it lasts, and the wall clock shows a time of its own. -/
abbrev clocksAt (wall : Value) : Clock World where
  milliseconds := return (← get).now
  wallSeconds := return wall

/-- The queries of a round for loads. -/
def figuresAt (script : Script) (wall : Value) : SamplingM World Figures :=
  @figures Progress (clocksAt wall) script.source true

/-- The batch of a round, with the loads of the processors each. -/
def batchAt (script : Script) (wall : Value) : SamplingM World (List Sample) :=
  @collect World _ _ (clocksAt wall) script.source true

/-- The table of a round. -/
def tableAt (script : Script) (wall : Value) (title : String) : SamplingM World LoadTable :=
  @table World _ _ (clocksAt wall) script.source title

variable {script : Script} {s : Sampler Value} {p : Progress} {wall : Value}

theorem outcome_figuresAt : outcome (figuresAt script wall) s p =
    andThen (outcome (systemLoad script.source) s p) fun total s p =>
      andThen (outcome (systemTickLoad script.source) s p) fun ticks s p =>
        andThen (outcome (processorLoads script.source) s p) fun loads s p => (.ok ⟨wall, total, ticks, loads⟩, s, p) := by
  unfold figuresAt figures
  simp only [outcome_bind_fun, ↓reduceIte]
  rfl

theorem outcome_tableAt_eq (title : String) : outcome (tableAt script wall title) s p =
    andThen (outcome (systemLoad script.source) s p) fun total s p =>
      if s.meter.isSome then
        andThen (outcome (systemTickLoad script.source) s p) fun ticks s p =>
          andThen (outcome (processorLoads script.source) s p) fun loads s p =>
            (.ok ⟨title, tableColumns, rowsOf ⟨wall, total, ticks, loads⟩ true⟩, s, p)
      else
        andThen (outcome (processorLoads script.source) s p) fun loads s p =>
          (.ok ⟨title, tableColumns, rowsOf ⟨wall, total, total, loads⟩ false⟩, s, p) := by
  unfold tableAt table
  rw [outcome_bind]
  refine congrArg (andThen _) ?_
  funext total s p
  rw [outcome_bind, outcome_get, andThen_ok]
  cases s.meter with
  | none =>
    simp only [outcome_bind_fun, ↓reduceIte, Option.isSome_none, Bool.false_eq_true]
    rfl
  | some meter =>
    simp only [outcome_bind_fun, ↓reduceIte, Option.isSome_some]
    rfl

/-- Whether asking for the share between ticks, and asking again at once, answers the same and leaves the same. -/
def Repeats (script : Script) (s : Sampler Value) (p : Progress) : Prop :=
  ∀ x left after, outcome (systemTickLoad script.source) s p = (.ok x, left, after) →
    outcome (systemTickLoad script.source) left after = (.ok x, left, after)

/-- A query for the total keeps a meter if there is one, and makes none. -/
theorem isSome_meter_systemLoad (measured : s.meter.isSome → script.percents.isSome) :
    (outcome (systemLoad script.source) s p).2.1.meter.isSome = s.meter.isSome := by
  cases used : s.meter with
  | none =>
    rw [outcome_systemLoad_of_ticks used, outcome_systemTickLoad]
    exact congrArg Option.isSome used
  | some meter =>
    rw [used] at measured
    rw [outcome_systemLoad_of_meter used (measured rfl)]
    rfl

/-- A table shows what the queries of a batch answer, and leaves what they leave. -/
theorem outcome_tableAt (measured : s.meter.isSome → script.percents.isSome)
    (repeats : s.meter = none → Repeats script s p) (title : String) :
    outcome (tableAt script wall title) s p =
      andThen (outcome (figuresAt script wall) s p) fun f left after =>
        (.ok ⟨title, tableColumns, rowsOf f s.meter.isSome⟩, left, after) := by
  have kept := isSome_meter_systemLoad (p := p) measured
  rw [outcome_tableAt_eq, outcome_figuresAt]
  rcases asked : outcome (systemLoad script.source) s p with ⟨e | total, left, after⟩
  · rfl
  rw [asked] at kept
  simp only [andThen_ok, andThen_assoc]
  rw [kept]
  cases used : s.meter with
  | none =>
    rw [outcome_systemLoad_of_ticks used] at asked
    rw [repeats used total left after asked]
    rfl
  | some meter => rfl

/-! ### Asking again -/

section
variable {piece : Timepiece} {threshold now : Value} {length : WithTop Rat}

/-- No time passes between a clock reading and itself, or a difference that nothing can be told about. -/
theorem not_exceeds_self (shows : piece.Shows now) (limited : limit? threshold = some length) (positive : 0 < length) :
    Elapsed.exceeds threshold now now = .ok false := by
  cases piece with
  | doubles =>
    obtain ⟨x, rfl⟩ := shows
    obtain ⟨n, read, bound⟩ := place_of_limit limited
    rw [exceeds_eq_isLess (rfl : (Value.float x).minus (.float x) = .ok (.float (x - x)))]
    unfold Value.isLess
    rw [read]
    show Except.ok (n.less (.float (x - x))) = _
    unfold Number.less
    rw [bound, DoubleDifference.place_minus_self]
    cases Binary64.value? x with
    | none => rfl
    | some q =>
      have later : (placeOf length).before (.at 0) = false :=
        Bool.eq_false_iff.mpr fun contra => not_lt_of_gt positive ((before_iff length 0).1.mp contra)
      exact congrArg Except.ok later
  | exact readings isExact =>
    obtain ⟨late, compared, beyond⟩ := exceeds_iff isExact limited shows.1 shows.1
    rw [sub_self] at beyond
    rw [compared, Bool.eq_false_iff.mpr fun contra => not_lt_of_gt positive (beyond.mp contra)]

/-- A store that is asked and either keeps its sample or takes a new one answers the same when it is asked again. -/
theorem refreshed_again {σ : Type} {accept : Judgement σ} {readings : Nat → Except Fault σ}
    {store : Store Value σ} {pulled : Nat} {late : Bool}
    (settled : Elapsed.exceeds threshold now now = .ok false) (compared : store.due threshold now = .ok late)
    (accepted : late = true → ∃ sample, readings pulled = .ok sample ∧ accept sample = .ok true) :
    let r := refreshed accept threshold now readings store pulled
    refreshed accept threshold now readings r.2.1 r.2.2 = (.ok r.2.1.pair, r.2.1, r.2.2) := by
  cases late with
  | false =>
    have kept : refreshed accept threshold now readings store pulled = (.ok store.pair, store, pulled) := by
      unfold refreshed
      rw [compared]
    rw [kept]
    exact kept
  | true =>
    obtain ⟨sample, brought, judged⟩ := accepted rfl
    have took : taken accept threshold now readings store pulled = some sample := by
      unfold taken
      rw [compared, brought]
      dsimp only
      rw [judged]
    rw [(refreshed_of_taken took).2]
    have again : Store.due threshold now ⟨store.current, sample, some now⟩ = .ok false := settled
    show refreshed accept threshold now readings ⟨store.current, sample, some now⟩ (pulled + 1) = _
    unfold refreshed
    rw [again]

end

/-- What a source brings next: readings of each kind, and not zero the one that all processors together are due for. -/
structure Brings (script : Script) (s : Sampler Value) (p : Progress) : Prop where
  row : ∃ row, script.row p.rows = .ok row ∧
    (s.system.due s.threshold p.now = .ok true → row.isNonzero = true)
  matrix : ∃ rows, script.matrix s.cores p.matrices = .ok rows
  percent : ∃ percent, script.percent p.percents = .ok percent

/-- A sampler at a reading of its clock, with a threshold above zero and some number for its hold. -/
structure Runs (piece : Timepiece) (script : Script) (s : Sampler Value) (now : Value) : Prop where
  clocked : Clocked piece s
  shows : piece.Shows now
  threshold : ∃ length, limit? s.threshold = some length ∧ 0 < length
  hold : IsNumber s.hold
  measured : s.meter.isSome → script.percents.isSome

section
variable {piece : Timepiece}

theorem isNumber_of_limit {v : Value} {length : WithTop Rat} (limited : limit? v = some length) : IsNumber v := by
  obtain ⟨n, read, _⟩ := place_of_limit limited
  exact ⟨n, read⟩

theorem Runs.limited {now : Value} (runs : Runs piece script s now) : IsNumber s.threshold := by
  obtain ⟨length, limited, _⟩ := runs.threshold
  exact isNumber_of_limit limited

theorem systemTickLoad_leaves (limited : IsNumber s.threshold) (shows : piece.Shows p.now)
    (dated : ∀ t ∈ s.system.refreshed, piece.Shows t) {row : Snapshot} (brought : script.row p.rows = .ok row) :
    ∃ store pulled, outcome (systemTickLoad script.source) s p =
      (store.previous.load store.current, { s with system := store }, { p with rows := pulled }) := by
  obtain ⟨late, compared⟩ : ∃ late, s.system.due s.threshold p.now = .ok late :=
    exists_store_due limited shows dated
  let r := refreshed Sampler.acceptRow s.threshold p.now script.row s.system p.rows
  have answered : r.1 = .ok r.2.1.pair := refreshed_answers compared brought rfl
  refine ⟨r.2.1, r.2.2, ?_⟩
  rw [outcome_systemTickLoad]
  exact congrArg (fun pair => (pair.bind fun pair => pair.1.load pair.2, _)) answered

theorem processorLoads_leaves (limited : IsNumber s.threshold) (shows : piece.Shows p.now)
    (dated : ∀ t ∈ s.processors.refreshed, piece.Shows t) {rows : List Snapshot}
    (brought : script.matrix s.cores p.matrices = .ok rows) :
    ∃ store pulled, outcome (processorLoads script.source) s p =
      (Sampler.loads store.pair, { s with processors := store }, { p with matrices := pulled }) := by
  obtain ⟨late, compared⟩ : ∃ late, s.processors.due s.threshold p.now = .ok late :=
    exists_store_due limited shows dated
  let r := refreshed Sampler.acceptMatrix s.threshold p.now (script.matrix s.cores) s.processors p.matrices
  have answered : r.1 = .ok r.2.1.pair := refreshed_answers compared brought rfl
  refine ⟨r.2.1, r.2.2, ?_⟩
  rw [outcome_processorLoads]
  exact congrArg (fun pair => (pair.bind Sampler.loads, _)) answered

theorem systemLoad_leaves {meter : Meter Value} (used : s.meter = some meter) (measured : script.percents.isSome)
    (limited : IsNumber s.hold) (shows : piece.Shows p.now) (past : piece.Shows meter.polled) {percent : Option Float}
    (brought : script.percent p.percents = .ok percent) :
    ∃ meter polls, outcome (systemLoad script.source) s p =
      (.ok meter.value, { s with meter := some meter }, { p with percents := polls }) := by
  obtain ⟨late, due⟩ := exists_meter_due limited shows past
  let r := polled s.hold p.now script.percent meter p.percents
  obtain ⟨x, answered⟩ : ∃ x, r.1 = .ok x := by
    unfold r polled Meter.query
    rw [due, brought]
    cases late with
    | false => exact ⟨_, rfl⟩
    | true => exact ⟨_, rfl⟩
  refine ⟨r.2.1, r.2.2, ?_⟩
  rw [outcome_systemLoad_of_meter used measured, ← value_of_polled answered]
  exact congrArg (·, _) answered

/-- A row that counts settles the store, whose answer then stands for the rest of the round. -/
theorem repeats_of_counting (runs : Runs piece script s p.now) (brings : Brings script s p) : Repeats script s p := by
  obtain ⟨late, compared⟩ : ∃ late, s.system.due s.threshold p.now = .ok late :=
    exists_store_due runs.limited runs.shows (runs.clocked.dated .system)
  obtain ⟨length, limited, positive⟩ := runs.threshold
  obtain ⟨row, brought, counts⟩ := brings.row
  have accepted (due : late = true) : ∃ sample, script.row p.rows = .ok sample ∧ Sampler.acceptRow sample = .ok true :=
    ⟨row, brought, congrArg Except.ok (counts (by rw [compared, due]))⟩
  let r := refreshed Sampler.acceptRow s.threshold p.now script.row s.system p.rows
  have first : r.1 = .ok r.2.1.pair := refreshed_answers compared brought rfl
  have again : refreshed Sampler.acceptRow s.threshold p.now script.row r.2.1 r.2.2 =
      (.ok r.2.1.pair, r.2.1, r.2.2) :=
    refreshed_again (not_exceeds_self runs.shows limited positive) compared accepted
  intro x left after asked
  rw [outcome_systemTickLoad] at asked
  obtain ⟨answered, same⟩ := Prod.mk.inj asked
  obtain ⟨rfl, rfl⟩ := Prod.mk.inj same
  rw [outcome_systemTickLoad]
  dsimp only
  rw [again, ← answered, first]

/-- The last query for loads completes the figures of a round. -/
theorem answer_completed (left : Sampler Value) {store : Store Value (List Snapshot)} {total ticks : Float}
    (loaded : left.system.previous.load left.system.current = .ok ticks)
    (known : (left.meter.map Meter.value).getD ticks = total) {queried : Except Fault Figures × Sampler Value × Progress}
    (asked : queried = andThen (Sampler.loads store.pair, { left with processors := store }, p) fun loads s p =>
      (.ok ⟨wall, total, ticks, loads⟩, s, p)) :
    queried.1 = figuresOf wall queried.2.1 ∧ queried.2.1.meter = left.meter := by
  rw [asked]
  cases loads : Sampler.loads store.pair with
  | error e =>
    refine ⟨?_, rfl⟩
    simp only [andThen_error, figuresOf, loaded, loads]
    rfl
  | ok xs =>
    refine ⟨?_, rfl⟩
    simp only [andThen_ok, figuresOf, loaded, loads]
    rw [← known]
    rfl

/-- The queries for loads answer what the sampler has after them. -/
theorem answer_figuresAt (wall : Value) (runs : Runs piece script s p.now) (brings : Brings script s p) :
    let queried := outcome (figuresAt script wall) s p
    queried.1 = figuresOf wall queried.2.1 ∧ queried.2.1.meter.isSome = s.meter.isSome := by
  obtain ⟨row, broughtRow, _⟩ := brings.row
  obtain ⟨rows, broughtRows⟩ := brings.matrix
  obtain ⟨percent, broughtPercent⟩ := brings.percent
  have ⟨dated, past⟩ := runs.clocked
  intro queried
  have asked : queried = _ := outcome_figuresAt
  cases used : s.meter with
  | none =>
    obtain ⟨store, pulled, ticks⟩ := systemTickLoad_leaves runs.limited runs.shows (dated .system) broughtRow
    rw [outcome_systemLoad_of_ticks used] at asked
    cases loaded : store.previous.load store.current with
    | error e =>
      rw [ticks, loaded] at asked
      rw [asked]
      refine ⟨?_, congrArg Option.isSome used⟩
      simp only [andThen_error, figuresOf, loaded]
      rfl
    | ok x =>
      rw [loaded] at ticks
      obtain ⟨store', pulled', loads⟩ : ∃ store' pulled', outcome (processorLoads script.source)
          { s with system := store } { p with rows := pulled } = _ :=
        processorLoads_leaves runs.limited runs.shows (dated .processors) broughtRows
      rw [ticks, andThen_ok, repeats_of_counting runs brings x _ _ ticks, andThen_ok, loads] at asked
      have known : (s.meter.map Meter.value).getD x = x := by rw [used]; rfl
      have ⟨answered, kept⟩ := answer_completed { s with system := store } loaded known asked
      exact ⟨answered, congrArg Option.isSome (kept.trans used)⟩
  | some meter =>
    obtain ⟨meter', polls, direct⟩ := systemLoad_leaves used (runs.measured (by rw [used]; rfl)) runs.hold runs.shows
      (past meter used) broughtPercent
    obtain ⟨store, pulled, ticks⟩ : ∃ store pulled, outcome (systemTickLoad script.source)
        { s with meter := some meter' } { p with percents := polls } = _ :=
      systemTickLoad_leaves runs.limited runs.shows (dated .system) broughtRow
    rw [direct, andThen_ok, ticks] at asked
    cases loaded : store.previous.load store.current with
    | error e =>
      rw [loaded] at asked
      rw [asked]
      refine ⟨?_, rfl⟩
      simp only [andThen_error, figuresOf, loaded]
      rfl
    | ok x =>
      obtain ⟨store', pulled', loads⟩ : ∃ store' pulled', outcome (processorLoads script.source)
          { s with meter := some meter', system := store } { p with percents := polls, rows := pulled } = _ :=
        processorLoads_leaves runs.limited runs.shows (dated .processors) broughtRows
      rw [loaded, andThen_ok, loads] at asked
      have ⟨answered, kept⟩ := answer_completed { s with meter := some meter', system := store } loaded rfl asked
      refine ⟨answered, ?_⟩
      rw [kept]
      rfl

end

/-! ### Both in one state -/

/-- The sample of a load average of a round, if it is available. -/
def averagesShown (time average : Value) : List Sample :=
  if isAvailable average then [averageOf time average] else []

/-- A batch adds the load average to what its queries answer, and leaves what they leave. -/
theorem outcome_batchAt {average : Value} {others : List Value} (given : script.averages (.int 1) = .ok (average :: others))
    (number : IsNumber average) :
    outcome (batchAt script wall) s p =
      andThen (outcome (figuresAt script wall) s p) fun f left after =>
        (.ok (f.samples ++ averagesShown f.time average), left, after) := by
  refine (@outcome_collect Progress (clocksAt wall) script.source true s p).trans (congrArg (andThen _) ?_)
  funext f left after
  rw [Scripted.outcome_loadAverages]
  show andThen (script.averages (.int 1), left, after) _ = _
  rw [given, andThen_ok, Figures.batch, averageSample_of_isNumber _ number]
  rfl

variable {setup : Setup} {a : Stage} {piece : Timepiece} {length : WithTop Rat} {now : Value}

theorem runs_run (ready : begin script setup = .ok a) (started : piece.Shows setup.now) {calls : List Call}
    (timed : ∀ call ∈ calls, piece.Shows call.now) (limited : limit? setup.threshold = some length) (positive : 0 < length)
    (held : IsNumber setup.hold) (shows : piece.Shows now) :
    let b := (a.run script calls).2
    Routed (script.usesDirect setup) script b ∧ Runs piece script b.sampler now := by
  have routed : Routed (script.usesDirect setup) script a := routed_begin ready
  have clocked : Clocked piece a.sampler := clocked_begin ready started
  have first : a.sampler.threshold = setup.threshold ∧ a.sampler.hold = setup.hold := by
    obtain ⟨identity, row, rows, meter, _, _, _, _, rfl⟩ := begin_eq_ok_iff.mp ready
    exact ⟨rfl, rfl⟩
  let Kept (b : Stage) : Prop := Routed (script.usesDirect setup) script b ∧
    b.sampler.threshold = setup.threshold ∧ b.sampler.hold = setup.hold
  have step (b : Stage) (call : Call) (before : Kept b) : Kept (b.answer script call).2 := by
    obtain ⟨routed, threshold, hold⟩ := before
    have keeps := keeps_answer routed call
    exact ⟨routed_answer routed call, keeps.threshold.trans threshold, keeps.hold.trans hold⟩
  obtain ⟨reached, threshold, hold⟩ : Kept (a.run script calls).2 := run_induction step calls ⟨routed, first⟩
  refine ⟨reached, clocked_run routed clocked timed, shows, ⟨length, ?_, positive⟩, ?_, fun used => ?_⟩
  · rw [threshold]
    exact limited
  · rw [hold]
    exact held
  · exact reached.measured (reached.metered.symm.trans used)

/-- A source of a load average whose processors together are busy for two ticks of three. -/
def counted : Script :=
  { Lanes.counting with
    rows := fun i => .ok (.list [.int (2 * (i + 1)), .int 0, .int 0, .int (i + 1)])
    averages := fun _ => .ok [.float 0.5] }

/-- A sampler over it. -/
def counter : Stage := counted.firstStage UnitInterval.everySecond {} ⟨2, 0, 0, 1, 0, 0, 0⟩ [⟨1, 0, 0, 0, 0, 0, 0⟩] none

def countedRows : List (List String) := [["total", " 66.7%"], ["cpu0", "100.0%"]]

end CpuLoad.TabledRound
