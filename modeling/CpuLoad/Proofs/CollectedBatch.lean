import CpuLoad.Collector
import CpuLoad.Proofs.Outcome
import Mathlib.Data.List.Nodup

/-!
What a round of collection makes of the answers to its queries. The queries for loads come first (`figures`), then the
one for load averages, whose first one becomes a sample if it is available (`outcome_collect`). No two samples of a batch
have the same name and the same labels, however many processors there are (`nodup_seriesOf`).
-/
namespace CpuLoad.CollectedBatch
open CpuLoad.Collector CpuLoad.Outcome CpuLoad.Sampling

/-! ### The queries of a round -/

/-- What the queries for loads answer, and the time of the round. -/
structure Figures where
  time : Value
  total : Float
  ticks : Float
  loads : List Float

section
variable {ω : Type} [Clock (StateM ω)] (source : Source (StateM ω)) (perProcessor : Bool)

/-- The queries for loads, in their order. -/
def figures : SamplingM (StateM ω) Figures := do
  let time ← (Clock.wallSeconds : SamplingM (StateM ω) Value)
  let total ← systemLoad source
  let ticks ← systemTickLoad source
  let loads ← if perProcessor then processorLoads source else pure []
  return ⟨time, total, ticks, loads⟩

end

def averageOf (time average : Value) : Sample :=
  { name := .text "system.cpu.load_avg_1m", value := average, unit := .text "1", timestamp := time
    description := .text "Load average 1 minute" }

theorem averageSample_eq {average : Value} {n : Number} (time : Value) (known : Number.ofValue average = .ok n) :
    averageSample time average = .ok (if n.isNonnegative then [averageOf time average] else []) := by
  unfold averageSample
  rw [known]
  by_cases available : n.isNonnegative <;> simp [bind, Except.bind, pure, Except.pure, available, averageOf]

/-- A load average is one sample, or none. -/
theorem averageSample_cases {time average : Value} {last : List Sample} (made : averageSample time average = .ok last) :
    last = [] ∨ last = [averageOf time average] := by
  cases known : Number.ofValue average with
  | error e =>
    unfold averageSample at made
    rw [known] at made
    cases made
  | ok n =>
    rw [averageSample_eq time known] at made
    cases made
    by_cases available : n.isNonnegative <;> simp [available]

namespace Figures

def samples (f : Figures) : List Sample :=
  [totalSample f.time f.total, ticksSample f.time f.ticks] ++ processorSamples f.time f.loads

/-- The batch of a round to which the source gave some load averages. -/
def batch (f : Figures) : List Value → Except Fault (List Sample)
  | [] => .error .missingEntry
  | average :: _ => (averageSample f.time average).map (f.samples ++ ·)

end Figures

theorem exists_loadSample {f : Figures} {s : Sample} (member : s ∈ f.samples) :
    ∃ name load processor description, s = loadSample name f.time load processor description := by
  rcases List.mem_append.mp member with total | processor
  · rcases List.mem_cons.mp total with rfl | ticks
    · exact ⟨_, _, _, _, rfl⟩
    · rw [List.mem_singleton.mp ticks]
      exact ⟨_, _, _, _, rfl⟩
  · obtain ⟨load, _, rfl⟩ := List.mem_map.mp processor
    exact ⟨_, _, _, _, rfl⟩

section
variable {ω : Type} [Clock (StateM ω)] {source : Source (StateM ω)} {perProcessor : Bool} {s : Sampler Value} {world : ω}

theorem outcome_collect :
    outcome (collect source perProcessor) s world =
      andThen (outcome (figures source perProcessor) s world) fun f s world =>
        andThen (outcome (loadAverages source (.int 1)) s world) fun averages s world => (f.batch averages, s, world) := by
  have ending (f : Figures) (s : Sampler Value) (world : ω) :
      andThen (outcome (loadAverages source (.int 1)) s world) (fun averages => outcome (match averages with
        | [] => throw .missingEntry
        | average :: _ => do
          let last ← MonadExcept.ofExcept (averageSample f.time average)
          return f.samples ++ last)) =
      andThen (outcome (loadAverages source (.int 1)) s world) fun averages s world => (f.batch averages, s, world) := by
    refine congrArg (andThen _) ?_
    funext averages s world
    cases averages with
    | nil => rfl
    | cons average rest =>
      simp only [outcome_bind, outcome_ofExcept, Figures.batch]
      cases averageSample f.time average <;> rfl
  have pures {α : Type} (a : α) : outcome (pure a : SamplingM (StateM ω) α) = fun s world => (.ok a, s, world) := rfl
  unfold collect figures
  cases perProcessor with
  | true =>
    simp only [↓reduceIte, outcome_bind_fun, andThen_assoc, pures, andThen_ok, ← ending]
    rfl
  | false =>
    simp only [Bool.false_eq_true, ↓reduceIte, outcome_bind_fun, andThen_assoc, pures, andThen_ok, ← ending]
    rfl

/-- A batch begins with the samples of the loads, and at most the load average follows. -/
theorem samples_of_collect {batch : List Sample} {left : Sampler Value × ω}
    (collected : outcome (collect source perProcessor) s world = (.ok batch, left)) :
    ∃ (f : Figures) (last : List Sample), batch = f.samples ++ last ∧
      (last = [] ∨ ∃ average, last = [averageOf f.time average]) := by
  rw [outcome_collect] at collected
  generalize outcome (figures source perProcessor) s world = queried at collected
  rcases queried with ⟨e | f, s, world⟩
  · cases collected
  rw [andThen_ok] at collected
  generalize outcome (loadAverages source (.int 1)) s world = answered at collected
  rcases answered with ⟨e | averages, s, world⟩
  · cases collected
  rw [andThen_ok] at collected
  cases averages with
  | nil => cases collected
  | cons average rest =>
    obtain ⟨last, made, whole⟩ := eq_ok_of_map (congrArg Prod.fst collected)
    refine ⟨f, last, whole.symm, ?_⟩
    rcases averageSample_cases made with none | one
    · exact .inl none
    · exact .inr ⟨average, one⟩

end

/-! ### What tells the samples of a batch apart -/

/-- The label of a sample under a key. -/
def labelAt (labels : Value) (key : String) : Option Value :=
  match labels with
  | .table rows => Value.lookup key rows
  | _ => none

/-- Whether two samples belong to one series: they have one name, and their labels say the same under every key. -/
def SameSeries (s t : Sample) : Prop := s.name = t.name ∧ labelAt s.labels = labelAt t.labels

/-- A sample's name and the processor that its labels name. -/
def seriesOf (s : Sample) : Value × Option Value := (s.name, labelAt s.labels "cpu")

theorem seriesOf_of_same {s t : Sample} (same : SameSeries s t) : seriesOf s = seriesOf t := by
  obtain ⟨name, labels⟩ := same
  simp [seriesOf, name, labels]

theorem indexText_inj {i j : Nat} (same : indexText i = indexText j) : i = j := by
  have read (n : Nat) : Nat.ofDigitChars 10 (indexText n).toList 0 = n := by
    simp [indexText, DecimalDigit.digitsOf]
  rw [← read i, same, read]

/-- An index is written in digits, so it is not the word for all processors together. -/
theorem indexText_ne_total (i : Nat) : indexText i ≠ "total" := by
  intro same
  have digits : ∀ c ∈ (indexText i).toList, c.isDigit := by
    intro c member
    rw [indexText, String.toList_ofList] at member
    exact Nat.isDigit_of_mem_toDigits (by decide) (by decide) member
  rw [same] at digits
  exact absurd (digits 't' (by decide)) (by decide)

section
variable (time : Value) (load : Float) (loads : List Float)

theorem seriesOf_loadSample (name processor description : String) :
    seriesOf (loadSample name time load processor description) = (.text name, some (.text processor)) := by
  simp [seriesOf, loadSample, labelAt, processorLabels, Value.lookup, Value.at?, Value.sameKey]

theorem map_seriesOf_processorSamples : (processorSamples time loads).map seriesOf =
    (List.range loads.length).map fun i => (.text "system.cpu.load_ratio", some (.text (indexText i))) := by
  have each : seriesOf ∘ (fun load : Float × Nat => processorSample time load.2 load.1) =
      (fun i => (Value.text "system.cpu.load_ratio", some (Value.text (indexText i)))) ∘ Prod.snd := by
    funext load
    exact seriesOf_loadSample ..
  have shown : processorSamples time loads =
      loads.zipIdx.map fun load => processorSample time load.2 load.1 := rfl
  rw [shown, List.map_map, each, ← List.map_map, List.zipIdx_map_snd, List.range_eq_range']

end

theorem map_seriesOf_samples (f : Figures) : f.samples.map seriesOf =
    (.text "system.cpu.load_ratio", some (.text "total")) ::
      (.text "system.cpu.load_ratio_ticks", some (.text "total")) ::
        (List.range f.loads.length).map fun i => (.text "system.cpu.load_ratio", some (.text (indexText i))) := by
  simp [Figures.samples, map_seriesOf_processorSamples, totalSample, ticksSample, seriesOf_loadSample]

/-- No two samples of a batch agree in their name and the processor of their labels. -/
theorem nodup_seriesOf {f : Figures} {last : List Sample}
    (few : last = [] ∨ ∃ average, last = [averageOf f.time average]) :
    ((f.samples ++ last).map seriesOf).Nodup := by
  have indices : ((List.range f.loads.length).map fun i =>
      (Value.text "system.cpu.load_ratio", some (Value.text (indexText i)))).Nodup := by
    refine List.nodup_range.map fun i j same => indexText_inj ?_
    simpa using same
  have loads : (f.samples.map seriesOf).Nodup := by simp [map_seriesOf_samples, indices, indexText_ne_total]
  rcases few with rfl | ⟨average, rfl⟩
  · simpa using loads
  · have own : seriesOf (averageOf f.time average) = (.text "system.cpu.load_avg_1m", none) := rfl
    have new : seriesOf (averageOf f.time average) ∉ f.samples.map seriesOf := by simp [map_seriesOf_samples, own]
    rw [List.map_append, List.map_singleton, ← List.concat_eq_append]
    exact loads.concat new

end CpuLoad.CollectedBatch
