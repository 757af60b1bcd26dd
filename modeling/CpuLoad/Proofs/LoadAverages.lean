import CpuLoad.Proofs.CollectedBatch
import CpuLoad.SourceChoice

/-!
The load averages that the sources have, and what a round of collection makes of them. A platform's list is filled up
with figures below zero, and so is what a source answers that knows none. But the words of a file are taken as they are:
a file with fewer than three of them gives fewer averages (`short_iff_readsWords`), and a blank one costs the round its
batch (`outcome_collect_of_reports`).
-/
namespace CpuLoad.LoadAverages
open CpuLoad.CollectedBatch CpuLoad.Collector CpuLoad.Outcome CpuLoad.Sampling

/-- The load average that stands for one that is not available. -/
def unavailable : Value := .float (-1.0)

/-- Whether a load average is a number that is not below zero. -/
def isAvailable (average : Value) : Bool :=
  match Number.ofValue average with
  | .ok n => n.isNonnegative
  | .error _ => false

def IsNumber (v : Value) : Prop := ∃ n, Number.ofValue v = .ok n

/-- Whether a platform that fails so has no load averages: it does not know them, or the system refuses them. -/
def isRefusal (e : Fault) : Bool := e.isSystem || e matches .reported .unsupported _

/-! ### What each source answers -/

section
variable {ω : Type}

variable [Files (StateM ω)]

/-- What the file of load averages has, or why it cannot be opened. -/
def averagesFile (machine : Machine (StateM ω)) : ExceptT Fault (StateM ω) (Except FileFault String) :=
  ProcSource.readIfOpen (machine.procRoot ++ "/loadavg")

/-- The load averages that a source has in its surroundings, and the surroundings after it was asked for them. -/
inductive Reports (machine : Machine (StateM ω)) (world : ω) : Source (StateM ω) → List Value → ω → Prop
  /-- The file cannot be opened. -/
  | unopened {fault : FileFault} {left : ω} (read : (averagesFile machine).run.run world = (.ok (.error fault), left)) :
      Reports machine world (machine.source .proc) (List.replicate 3 unavailable) left
  /-- The file has words, of which the first three, or as many as there are, denote numbers. -/
  | words {text : String} {numbers : List Value} {left : ω}
      (read : (averagesFile machine).run.run world = (.ok (.ok text), left))
      (numeric : ((Blank.wordsOf text).take 3).mapM ProcSource.numberOf = .ok numbers) :
      Reports machine world (machine.source .proc) numbers left
  /-- The platform has a list of numbers. -/
  | listed {known : Value} {numbers : List Value} {left : ω}
      (given : machine.times.averages.run.run world = (.ok known, left)) (visited : known.visits = .ok numbers)
      (numeric : ∀ x ∈ numbers, IsNumber x) :
      Reports machine world (machine.source .times)
        (numbers ++ List.replicate (3 - numbers.length) unavailable) left
  /-- The platform has none, or the system refuses them. -/
  | refused {e : Fault} {left : ω} (given : machine.times.averages.run.run world = (.error e, left))
      (cause : isRefusal e) :
      Reports machine world (machine.source .times) (List.replicate 3 unavailable) left
  /-- The source knows nothing of load averages. -/
  | silent {source : Source (StateM ω)}
      (knowsNone : source.averages = fun count => MonadExcept.ofExcept (Source.noAverages count)) :
      Reports machine world source (List.replicate 3 unavailable) world

variable {machine : Machine (StateM ω)} {world left : ω} {source : Source (StateM ω)} {averages : List Value} {n : Nat}

theorem noAverages_eq (least : 1 ≤ n) (most : n ≤ 3) :
    Source.noAverages (.int n) = .ok ((List.replicate 3 unavailable).take n) := by
  obtain rfl | rfl | rfl : n = 1 ∨ n = 2 ∨ n = 3 := by omega
  all_goals rfl

theorem isAverageCount_eq (least : 1 ≤ n) (most : n ≤ 3) : Source.isAverageCount (.int n) = .ok true := by
  obtain rfl | rfl | rfl : n = 1 ∨ n = 2 ∨ n = 3 := by omega
  all_goals rfl

theorem firstCounted_eq (n : Nat) (xs : List Value) : Source.firstCounted (.int n) xs = .ok (xs.take n) := by
  simp [Source.firstCounted, Source.firstItems]

theorem run_averages (reports : Reports machine world source averages left) (least : 1 ≤ n) (most : n ≤ 3) :
    (source.averages (.int n)).run.run world = (.ok (averages.take n), left) := by
  cases reports with
  | unopened read =>
    refine (run_bind_ok read).trans ?_
    rw [noAverages_eq least most]
    rfl
  | words read numeric =>
    refine (run_bind_ok read).trans ?_
    dsimp only
    rw [numeric, run_ofExcept]
    exact congrArg (·, left) (firstCounted_eq n averages)
  | @listed known numbers left given visited numeric =>
    have attempted := run_attempt machine.times.averages world
    rw [given] at attempted
    have filled : (MonadExcept.ofExcept known.visits : ExceptT Fault (StateM ω) (List Value)).run.run left =
        (.ok numbers, left) := by rw [run_ofExcept, visited]
    refine (run_bind_ok attempted).trans ((run_bind_ok filled).trans ?_)
    dsimp only
    rw [firstCounted_eq]
    rfl
  | @refused e left given cause =>
    have attempted := run_attempt machine.times.averages world
    rw [given] at attempted
    refine (run_bind_ok attempted).trans ?_
    refine (congrArg (fun x => StateT.run (ExceptT.run x) left) (if_pos cause)).trans ?_
    refine (run_bind_ok (show _ = (Except.ok (), left) from rfl)).trans ?_
    dsimp only
    rw [pure_bind, firstCounted_eq]
    rfl
  | silent knowsNone =>
    rw [knowsNone]
    dsimp only
    rw [noAverages_eq least most]
    rfl

/-- What else a platform fails with is passed on. -/
theorem run_averages_of_fault {e : Fault} (given : machine.times.averages.run.run world = (.error e, left))
    (other : ¬ isRefusal e) (count : Value) :
    ((machine.source .times).averages count).run.run world = (.error e, left) := by
  have attempted := run_attempt machine.times.averages world
  rw [given] at attempted
  refine (run_bind_ok attempted).trans ?_
  refine (congrArg (fun x => StateT.run (ExceptT.run x) left) (if_neg other)).trans ?_
  rfl

theorem isNumber_numberOf {word : String} {v : Value} (read : ProcSource.numberOf word = .ok v) : IsNumber v := by
  obtain ⟨x, _, rfl⟩ := eq_ok_of_map read
  exact ⟨_, rfl⟩

theorem isNumber_replicate (n : Nat) : ∀ x ∈ List.replicate n unavailable, IsNumber x := by
  intro x member
  rw [List.eq_of_mem_replicate member]
  exact ⟨_, rfl⟩

theorem isNumber_of_reports (reports : Reports machine world source averages left) : ∀ x ∈ averages, IsNumber x := by
  cases reports with
  | unopened | refused | silent => exact isNumber_replicate 3
  | words read numeric =>
    intro x member
    have known : .ok x ∈ averages.map (Except.ok (ε := Fault)) := List.mem_map_of_mem member
    rw [← mapM_eq_ok_iff.mp numeric] at known
    obtain ⟨word, _, denotes⟩ := List.mem_map.mp known
    exact isNumber_numberOf denotes
  | listed given visited numeric => exact List.forall_mem_append.mpr ⟨numeric, isNumber_replicate _⟩

theorem length_of_mapM {words : List String} {numbers : List Value} (numeric : words.mapM ProcSource.numberOf = .ok numbers) :
    numbers.length = words.length := by
  have lengths := congrArg List.length (mapM_eq_ok_iff.mp numeric)
  simpa using lengths.symm

/-- A source that reads its load averages from a file with so many words. -/
def ReadsWords (machine : Machine (StateM ω)) (source : Source (StateM ω)) (world left : ω) (count : Nat) : Prop :=
  source = machine.source .proc ∧
    ∃ text, (averagesFile machine).run.run world = (.ok (.ok text), left) ∧ (Blank.wordsOf text).length = count

/-- A source has fewer than three load averages exactly if it reads them from a file with as few words. -/
theorem short_iff_readsWords (reports : Reports machine world source averages left) {count : Nat} (few : count < 3) :
    averages.length = count ↔ ReadsWords machine source world left count := by
  constructor
  · rintro rfl
    cases reports with
    | unopened | refused | silent => simp at few
    | @words text _ _ read numeric =>
      refine ⟨rfl, text, read, ?_⟩
      have lengths := length_of_mapM numeric
      rw [List.length_take] at lengths
      omega
    | listed given visited numeric =>
      rw [List.length_append, List.length_replicate] at few
      omega
  · rintro ⟨rfl, text, read, counted⟩
    -- What the source answers to a request for three is known in two ways.
    have asked := run_averages reports (n := 3) (by decide) (by decide)
    have answered : ((machine.source .proc).averages (.int (3 : Nat))).run.run world = _ := run_bind_ok read
    rw [answered] at asked
    dsimp only at asked
    rw [run_ofExcept] at asked
    obtain ⟨numbers, numeric, taken⟩ := eq_ok_of_bind (congrArg Prod.fst asked)
    have lengths := length_of_mapM numeric
    have same : numbers.take 3 = averages.take 3 := Except.ok.inj ((firstCounted_eq 3 numbers).symm.trans taken)
    have sizes := congrArg List.length same
    rw [List.length_take] at lengths
    rw [List.length_take, List.length_take] at sizes
    omega

theorem isAvailable_unavailable : ¬ isAvailable unavailable := by decide +kernel

/-! ### What they cost a round -/

variable {s : Sampler Value}

omit [Files (StateM ω)] in
theorem outcome_loadAverages {answer : Except Fault (List Value)} (least : 1 ≤ n) (most : n ≤ 3)
    (answered : (source.averages (.int n)).run.run world = (answer, left)) :
    outcome (loadAverages source (.int n)) s world = (answer, s, left) := by
  have asked : outcome (ask (source.averages (.int n)) : SamplingM (StateM ω) (List Value)) s world = (answer, s, left) :=
    congrArg (fun r : Except Fault (List Value) × ω => (r.1, s, r.2)) answered
  unfold loadAverages
  rw [outcome_bind, outcome_ofExcept, isAverageCount_eq least most, andThen_ok, if_pos rfl, asked]

theorem averageSample_of_isNumber {average : Value} (time : Value) (number : IsNumber average) :
    averageSample time average = .ok (if isAvailable average then [averageOf time average] else []) := by
  obtain ⟨n, known⟩ := number
  rw [averageSample_eq time known, isAvailable, known]

variable [Clock (StateM ω)]

/-- A round whose queries for loads are answered has a batch if the source has a load average at all, and the first one
is in the batch exactly if it is available. -/
theorem outcome_collect_of_reports {perProcessor : Bool} {before : Sampler Value} {start : ω} {f : Figures}
    (queried : outcome (figures source perProcessor) before start = (.ok f, s, world))
    (reports : Reports machine world source averages left) :
    outcome (collect source perProcessor) before start =
      match averages with
      | [] => (.error .missingEntry, s, left)
      | average :: _ => (.ok (f.samples ++ if isAvailable average then [averageOf f.time average] else []), s, left) := by
  have least : 1 ≤ 1 := Nat.le_refl 1
  have most : 1 ≤ 3 := by decide
  have asked : outcome (loadAverages source (.int 1)) s world = _ :=
    outcome_loadAverages least most (run_averages reports least most)
  have numbers := isNumber_of_reports reports
  rw [outcome_collect, queried, andThen_ok]
  refine (congrArg (andThen · _) asked).trans ?_
  rw [andThen_ok]
  cases averages with
  | nil => rfl
  | cons average rest =>
    rw [List.take_succ_cons, Figures.batch, averageSample_of_isNumber _ (numbers average (List.mem_cons_self ..))]
    rfl

/-- A source of the machine answers a request for up to three load averages with the first ones it has, all of them
numbers, and what fills up its list is not available. It has fewer than three exactly if it reads them from a file with as
few words. A platform's fault that is no refusal is passed on. A round whose queries for loads are answered has its batch
unless there is no load average at all, and one is in the batch exactly if the first one is available. -/
theorem averages_fall_short_only_of_files (reports : Reports machine world source averages left) :
    (∀ (s : Sampler Value) (n : Nat), 1 ≤ n → n ≤ 3 →
      outcome (loadAverages source (.int n)) s world = (.ok (averages.take n), s, left)) ∧
    (∀ average ∈ averages, IsNumber average) ∧ ¬ isAvailable unavailable ∧
    (∀ count < 3, averages.length = count ↔ ReadsWords machine source world left count) ∧
    (∀ (s : Sampler Value) (n : Nat) (e : Fault) (after : ω), 1 ≤ n → n ≤ 3 →
      machine.times.averages.run.run world = (.error e, after) → ¬ isRefusal e →
        outcome (loadAverages (machine.source .times) (.int n)) s world = (.error e, s, after)) ∧
    ∀ (perProcessor : Bool) (before s : Sampler Value) (start : ω) (f : Figures),
      outcome (figures source perProcessor) before start = (.ok f, s, world) →
      outcome (collect source perProcessor) before start =
        match averages with
        | [] => (.error .missingEntry, s, left)
        | average :: _ =>
          (.ok (f.samples ++ if isAvailable average then [averageOf f.time average] else []), s, left) := by
  refine ⟨?_, isNumber_of_reports reports, isAvailable_unavailable, ?_, ?_, ?_⟩
  · intro s n least most
    exact outcome_loadAverages least most (run_averages reports least most)
  · intro count few
    exact short_iff_readsWords reports few
  · intro s n e after least most given other
    exact outcome_loadAverages least most (run_averages_of_fault given other _)
  · intro perProcessor before s start f queried
    exact outcome_collect_of_reports queried reports

end

/-! ### A machine with files of few words -/

/-- Texts that can be read, by their paths, while the clocks stand still. -/
structure Shelf where
  texts : List (String × String)

instance : Files (StateM Shelf) where
  read path := return match (← get).texts.lookup path with
    | some text => .ok text.toUTF8
    | none => .error ⟨.missing, path⟩
  isPresent path := return .ok ((← get).texts.lookup path).isSome
  makeDirectory path := return .error ⟨.denied, path⟩
  openEnd path := return .error ⟨.denied, path⟩
  write _ text := return text
  append _ _ := return ()

instance : Clock (StateM Shelf) where
  milliseconds := return .int 0
  wallSeconds := return .int 0

def oneProcessor : Machine (StateM Shelf) where
  hardware := "x86_64"
  processor := ""
  processors := some 1
  procRoot := "/proc"
  deviceRoot := "/sys"
  times :=
    { logical := none, physical := none, times := return [], processorTimes := return [], percent := return .null
      now := return .null, started := return .null, averages := return .list [], hasDescriptions := false }

def withTwoAverages : Shelf := ⟨[("/proc/loadavg", "0.5 0.25\n")]⟩

theorem averages_fall_short_only_of_files_two :
    outcome (loadAverages (oneProcessor.source .proc) (.int (3 : Nat))) default withTwoAverages =
      (.ok [.float 0.5, .float 0.25], default, withTwoAverages) := by
  have reports : Reports oneProcessor withTwoAverages (oneProcessor.source .proc) [.float 0.5, .float 0.25]
      withTwoAverages := .words rfl rfl
  exact (averages_fall_short_only_of_files reports).1 default 3 (by decide) (by decide)

/-- The ticks of one processor, and a blank file of load averages. -/
def withBlankAverages : Shelf := ⟨[("/proc/stat", "cpu 1 0 0 1\ncpu0 1 0 0 1\n"), ("/proc/loadavg", "")]⟩

/-- A new sampler over these files. -/
def begun : Sampler Value :=
  match ((oneProcessor.sampler { source := .text "procfs" }).run.run withBlankAverages).1 with
  | .ok (_, s) => s
  | .error _ => default

/-- A blank file gives no load average at all, and the round that asks for one fails although every query for loads is
answered. -/
theorem blank_file_costs_the_batch :
    (oneProcessor.sampler { source := .text "procfs" }).run.run withBlankAverages =
      (.ok (oneProcessor.source .proc, begun), withBlankAverages) ∧
    (outcome (figures (oneProcessor.source .proc) true) begun withBlankAverages).1.toOption.isSome ∧
    outcome (loadAverages (oneProcessor.source .proc) (.int 1)) begun withBlankAverages =
      (.ok [], begun, withBlankAverages) ∧
    (outcome (collect (oneProcessor.source .proc) true) begun withBlankAverages).1.toOption.isNone := by
  refine ⟨rfl, ?_, rfl, ?_⟩
  · decide +kernel
  · decide +kernel

end CpuLoad.LoadAverages
