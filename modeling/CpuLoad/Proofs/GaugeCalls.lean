import CpuLoad.Gauges
import CpuLoad.Proofs.CollectedBatch
import CpuLoad.Proofs.Precedence
import Mathlib.Data.List.TakeWhile

/-!
What a telemetry service is asked to do over all exports. The gauges know the names of the samples before (`Knows`), so
each name is created once, right before its first sample is set, and every sample sets the gauge of its name
(`calls_of_knows`, `countP_creates`). The samples of one collected batch belong to different series, so none of them
sets what another one has set (`lastSet_of_distinct`).
-/
namespace CpuLoad.GaugeCalls
open CpuLoad.CollectedBatch CpuLoad.Gauges CpuLoad.Outcome CpuLoad.Precedence

/-! ### A service that keeps its calls -/

abbrev Past := List GaugeCall

instance : Telemetry (StateM Past) := ⟨fun c => modify (· ++ [c])⟩

/-- Publishes some batches in turn. -/
def exportEach : List (List Sample) → GaugesM (StateM Past) Unit
  | [] => return
  | batch :: rest => do
    publish batch
    exportEach rest

/-- Whether a sample's name is a text. -/
def IsNamed (s : Sample) : Prop := ∃ name, s.name = .text name

/-- The calls for a sample, after some other ones: its gauge is created if none of them had its name. -/
def callsOf (earlier : List Sample) (s : Sample) : List GaugeCall :=
  (if earlier.any fun t => t.name.sameKey s.name then [] else [.create s.name s.unit s.description]) ++
    [.set s.name s.value s.labels]

/-- The calls for some samples in turn, after some other ones. -/
def callsAfter : List Sample → List Sample → List GaugeCall
  | _, [] => []
  | earlier, s :: rest => callsOf earlier s ++ callsAfter (earlier ++ [s]) rest

/-- Whether a call creates the gauge of a name. -/
def creates (name : Value) : GaugeCall → Bool
  | .create other .. => other.sameKey name
  | _ => false

/-- Whether the value that was set last for a gauge under some attributes is a given one. -/
def LastSet (past : Past) (name labels value : Value) : Prop :=
  ∃ front back, past = front ++ .set name value labels :: back ∧
    ∀ other v l, .set other v l ∈ back → other = name → labelAt l ≠ labelAt labels

variable {earlier samples batch rest : List Sample} {s t : Sample} {g : Gauges} {past : Past}

/-! ### One batch -/

/-- Whether the gauges are those of the names of some samples. -/
def Knows (g : Gauges) (earlier : List Sample) : Prop :=
  ∀ name : String, g.known? (.text name) = if earlier.any (·.name.sameKey (.text name)) then some (.text name) else none

theorem knows_nil : Knows ⟨[]⟩ [] := fun _ => rfl

theorem isKey_of_named (named : IsNamed s) : s.name.isKey = true := by
  obtain ⟨name, text⟩ := named
  rw [text]
  rfl

theorem step_of_knows (knows : Knows g earlier) (named : IsNamed s) :
    (g.step s).1 = callsOf earlier s ∧ Knows (g.step s).2 (earlier ++ [s]) := by
  obtain ⟨name, text⟩ := named
  have known := knows name
  unfold step callsOf
  rw [text, known]
  by_cases met : earlier.any (·.name.sameKey (.text name))
  · refine ⟨by simp [met], fun other => ?_⟩
    simp only [met, ↓reduceIte, List.any_append, List.any_cons, List.any_nil, Bool.or_false, text, sameKey_texts]
    rw [knows other]
    by_cases same : name = other
    · simp [← same, met]
    · simp [same]
  · refine ⟨by simp [met], fun other => ?_⟩
    have before := knows other
    unfold known? at before ⊢
    simp only [met, Bool.false_eq_true, ↓reduceIte, List.find?_append, before, List.find?_singleton, List.any_append,
      List.any_cons, List.any_nil, Bool.or_false, text, sameKey_texts]
    by_cases same : name = other
    · subst same
      simp [met]
    · simp [same]

/-- The calls for some samples are those of each of them, after the ones before it. -/
theorem calls_of_knows (knows : Knows g earlier) (named : ∀ s ∈ samples, IsNamed s) :
    (calls samples g).1 = callsAfter earlier samples ∧ Knows (calls samples g).2 (earlier ++ samples) := by
  induction samples generalizing g earlier with
  | nil => exact ⟨rfl, by simpa [calls] using knows⟩
  | cons s rest ih =>
    obtain ⟨here, later⟩ := List.forall_mem_cons.mp named
    obtain ⟨own, known⟩ := step_of_knows knows here
    obtain ⟨others, final⟩ := ih known later
    unfold calls callsAfter
    simp only [own, others]
    exact ⟨trivial, by simpa using final⟩

theorem outcome_callEach (cs : List GaugeCall) (g : Gauges) (past : Past) :
    outcome (callEach cs : GaugesM (StateM Past) Unit) g past = (.ok (), g, past ++ cs) := by
  induction cs generalizing past with
  | nil => simp [callEach]
  | cons c cs ih =>
    have first : outcome (Telemetry.call c : GaugesM (StateM Past) Unit) g past = (.ok (), g, past ++ [c]) := rfl
    rw [callEach, outcome_bind, first, andThen_ok, ih]
    simp

theorem outcome_publish (past : Past) (knows : Knows g earlier) (named : ∀ s ∈ batch, IsNamed s) :
    ∃ left, Knows left (earlier ++ batch) ∧
      outcome (publish batch : GaugesM (StateM Past) Unit) g past = (.ok (), left, past ++ callsAfter earlier batch) := by
  have whole : batch.takeWhile (fun s => s.name.isKey) = batch := by
    rw [List.takeWhile_eq_self_iff]
    exact fun s member => isKey_of_named (named s member)
  have all : areNamed batch = true := by
    rw [areNamed, List.all_eq_true]
    exact fun s member => isKey_of_named (named s member)
  obtain ⟨own, known⟩ := calls_of_knows knows named
  refine ⟨(calls batch g).2, known, ?_⟩
  unfold publish
  rw [outcome_bind, outcome_get, andThen_ok, whole]
  dsimp only
  rw [outcome_bind, outcome_callEach, andThen_ok, outcome_bind, outcome_set, andThen_ok, all, own]
  rfl

/-! ### All batches -/

theorem callsAfter_append (earlier samples more : List Sample) :
    callsAfter earlier (samples ++ more) = callsAfter earlier samples ++ callsAfter (earlier ++ samples) more := by
  induction samples generalizing earlier with
  | nil => simp [callsAfter]
  | cons s rest ih => simp [callsAfter, ih]

theorem outcome_exportEach {batches : List (List Sample)} (past : Past) (knows : Knows g earlier)
    (named : ∀ s ∈ batches.flatten, IsNamed s) :
    ∃ left, outcome (exportEach batches) g past = (.ok (), left, past ++ callsAfter earlier batches.flatten) := by
  induction batches generalizing g earlier past with
  | nil => exact ⟨g, by simp [exportEach, callsAfter]⟩
  | cons batch rest ih =>
    rw [List.flatten_cons] at named ⊢
    obtain ⟨here, later⟩ := List.forall_mem_append.mp named
    obtain ⟨middle, known, published⟩ := outcome_publish past knows here
    obtain ⟨left, exported⟩ := ih (past ++ callsAfter earlier batch) known later
    refine ⟨left, ?_⟩
    rw [exportEach, outcome_bind, published, andThen_ok, exported, callsAfter_append, List.append_assoc]

/-- Among the calls for some samples, a name is created once if one of them has it and none before did. -/
theorem countP_creates (named : ∀ s ∈ samples, IsNamed s) (name : String) :
    (callsAfter earlier samples).countP (creates (.text name)) =
      if earlier.any (·.name.sameKey (.text name)) then 0
      else if samples.any (·.name.sameKey (.text name)) then 1 else 0 := by
  induction samples generalizing earlier with
  | nil => simp [callsAfter]
  | cons s rest ih =>
    obtain ⟨⟨own, text⟩, later⟩ := List.forall_mem_cons.mp named
    rw [callsAfter, List.countP_append, ih later]
    unfold callsOf
    by_cases same : own = name
    · subst same
      by_cases met : earlier.any (·.name.sameKey (.text own)) <;> simp [met, text, creates, sameKey_texts]
    · by_cases met : earlier.any (·.name.sameKey (.text own)) <;> simp [met, text, creates, sameKey_texts, same]

theorem mem_callsAfter {name value labels : Value} (set : .set name value labels ∈ callsAfter earlier samples) :
    ∃ s ∈ samples, s.name = name ∧ s.labels = labels := by
  induction samples generalizing earlier with
  | nil => cases set
  | cons s rest ih =>
    rw [callsAfter, List.mem_append] at set
    rcases set with own | later
    · have same : name = s.name ∧ value = s.value ∧ labels = s.labels := by
        by_cases met : earlier.any fun t => t.name.sameKey s.name <;> simpa [callsOf, met] using own
      exact ⟨s, List.mem_cons_self .., same.1.symm, same.2.2.symm⟩
    · obtain ⟨t, member, same⟩ := ih later
      exact ⟨t, List.mem_cons_of_mem _ member, same⟩

/-- Where all samples belong to different series, each one's value is the last that was set for it. -/
theorem lastSet_of_distinct (distinct : batch.Pairwise fun s t => ¬ SameSeries s t) (member : s ∈ batch) :
    LastSet (past ++ callsAfter earlier batch) s.name s.labels s.value := by
  obtain ⟨front, back, rfl⟩ := List.append_of_mem member
  have after := (List.pairwise_append.mp distinct).2.1
  have apart := (List.pairwise_cons.mp after).1
  obtain ⟨created, calls⟩ : ∃ created, callsOf (earlier ++ front) s = created ++ [.set s.name s.value s.labels] :=
    ⟨_, rfl⟩
  refine ⟨past ++ callsAfter earlier front ++ created, callsAfter (earlier ++ front ++ [s]) back, ?_, ?_⟩
  · rw [callsAfter_append, callsAfter, calls]
    simp
  · rintro other v l set rfl same
    obtain ⟨t, later, name, rfl⟩ := mem_callsAfter set
    exact apart t later ⟨name.symm, same.symm⟩

/-! ### Collected batches -/

theorem named_samples (f : Figures) : ∀ s ∈ f.samples, IsNamed s := by
  intro s member
  rcases List.mem_append.mp member with loads | each
  · rcases List.mem_pair.mp loads with rfl | rfl
    · exact ⟨_, rfl⟩
    · exact ⟨_, rfl⟩
  · obtain ⟨load, _, rfl⟩ := List.mem_map.mp each
    exact ⟨_, rfl⟩

section
variable {ω : Type} [Clock (StateM ω)] {source : Source (StateM ω)} {perProcessor : Bool} {sampler : Sampler Value}
  {world : ω} {left : Sampler Value × ω}

theorem named_of_collect (collected : outcome (Collector.collect source perProcessor) sampler world = (.ok batch, left)) :
    ∀ s ∈ batch, IsNamed s := by
  obtain ⟨f, last, rfl, few⟩ := samples_of_collect collected
  refine List.forall_mem_append.mpr ⟨named_samples f, ?_⟩
  rcases few with rfl | ⟨average, rfl⟩
  · simp
  · simpa using ⟨_, rfl⟩

theorem distinct_of_collect
    (collected : outcome (Collector.collect source perProcessor) sampler world = (.ok batch, left)) :
    batch.Pairwise fun s t => ¬ SameSeries s t := by
  obtain ⟨f, last, rfl, few⟩ := samples_of_collect collected
  have apart := List.pairwise_map.mp (nodup_seriesOf few)
  exact apart.imp fun different same => different (seriesOf_of_same same)

end

/-- The calls that set gauges up. -/
theorem run_start {settings : GaugeSettings} {endpoint : String} (text : settings.endpoint = .text endpoint) (before : Past) :
    (start settings : ExceptT Fault (StateM Past) Gauges).run.run before =
      (.ok ⟨[]⟩, before ++ [.endpoint (metricsUrl endpoint) (if settings.headers.truth then settings.headers else .null)] ++
        [.reader settings.interval] ++ [.provider settings.service 1] ++ [.meter "tickload.cpu"]) := by
  unfold start
  rw [text]
  dsimp only
  unfold note
  cases (Notice.gaugesOpened endpoint settings.service).text <;> rfl

/-- New gauges have no names. -/
theorem gauges_of_start {settings : GaugeSettings} {before after : Past}
    (opened : (start settings : ExceptT Fault (StateM Past) Gauges).run.run before = (.ok g, after)) : g = ⟨[]⟩ := by
  cases address : settings.endpoint with
  | text endpoint =>
    rw [run_start address] at opened
    exact (Except.ok.inj (congrArg Prod.fst opened)).symm
  | _ =>
    unfold start at opened
    rw [address] at opened
    cases opened

/-- The calls of a service that was set up for gauges, over all batches that are exported to them: after the ones that set
it up, each name is created once, right before the first sample of that name and with that sample's unit and description,
and every sample sets its value under its labels for the gauge of its name, in the order of the samples. When a batch is
one that was collected, its samples belong to different series, and after its export the value that was set last for each
of them is its own. -/
theorem gauges_follow_samples {settings : GaugeSettings} {g : Gauges} {first : Past}
    (opened : ((start settings : ExceptT Fault (StateM Past) Gauges).run.run []) = (.ok g, first))
    (batches : List (List Sample)) (named : ∀ s ∈ batches.flatten, IsNamed s) :
    (∃ left, outcome (exportEach batches) g first = (.ok (), left, first ++ callsAfter [] batches.flatten)) ∧
    (∀ s ∈ batches.flatten, (callsAfter [] batches.flatten).countP (creates s.name) = 1) ∧
    ∀ {ω : Type} [Clock (StateM ω)] (source : Source (StateM ω)) (perProcessor : Bool) (sampler : Sampler Value)
      (world : ω) (batch : List Sample) (left : Sampler Value × ω),
      outcome (Collector.collect source perProcessor) sampler world = (.ok batch, left) →
        (batch.Pairwise fun s t => ¬ SameSeries s t) ∧
        ∃ g', ∃ past, outcome (exportEach (batches ++ [batch])) g first = (.ok (), g', past) ∧
          ∀ s ∈ batch, LastSet past s.name s.labels s.value := by
  have knows : Knows g [] := by
    rw [gauges_of_start opened]
    exact knows_nil
  refine ⟨outcome_exportEach first knows named, ?_, ?_⟩
  · intro s member
    obtain ⟨name, text⟩ := named s member
    have met : batches.flatten.any (·.name.sameKey (.text name)) := by
      rw [List.any_eq_true]
      exact ⟨s, member, by rw [text, sameKey_texts, beq_self_eq_true]⟩
    rw [text, countP_creates named name]
    simp [met]
  · intro ω _ source perProcessor sampler world batch left collected
    have distinct := distinct_of_collect collected
    have all : ∀ s ∈ (batches ++ [batch]).flatten, IsNamed s := by
      rw [List.flatten_append, List.flatten_singleton]
      exact List.forall_mem_append.mpr ⟨named, named_of_collect collected⟩
    obtain ⟨g', exported⟩ := outcome_exportEach first knows all
    refine ⟨distinct, g', _, exported, fun s member => ?_⟩
    rw [List.flatten_append, List.flatten_singleton, callsAfter_append, ← List.append_assoc]
    exact lastSet_of_distinct distinct member

/-- Two loads of one name, and one of another name between them. -/
def shared : List (List Sample) :=
  [[Collector.totalSample (.int 0) 0.25, Collector.ticksSample (.int 0) 0.5], [Collector.processorSample (.int 1) 0 0.75]]

theorem gauges_follow_samples_of_shared_names : ∃ first left,
    (start {} : ExceptT Fault (StateM Past) Gauges).run.run [] = (.ok ⟨[]⟩, first) ∧
    outcome (exportEach shared) ⟨[]⟩ first = (.ok (), left, first ++
      [.create (.text "system.cpu.load_ratio") (.text "1") (.text "System CPU load"),
        .set (.text "system.cpu.load_ratio") (.float 0.25) (Collector.processorLabels "total"),
        .create (.text "system.cpu.load_ratio_ticks") (.text "1") (.text "System CPU load between tick samples"),
        .set (.text "system.cpu.load_ratio_ticks") (.float 0.5) (Collector.processorLabels "total"),
        .set (.text "system.cpu.load_ratio") (.float 0.75) (Collector.processorLabels "0")]) := by
  have named : ∀ s ∈ shared.flatten, IsNamed s := by
    intro s member
    simp only [shared, List.flatten_cons, List.flatten_nil, List.append_nil, List.cons_append, List.nil_append,
      List.mem_cons, List.not_mem_nil, or_false] at member
    rcases member with rfl | rfl | rfl <;> exact ⟨_, rfl⟩
  obtain ⟨⟨left, exported⟩, _⟩ := @gauges_follow_samples {} _ _ rfl shared named
  exact ⟨_, left, rfl, exported⟩

end CpuLoad.GaugeCalls
