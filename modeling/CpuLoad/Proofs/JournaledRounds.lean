import CpuLoad.Commands
import CpuLoad.Proofs.CollectedBatch
import CpuLoad.Proofs.JournalSite
import CpuLoad.Proofs.JsonValues

/-!
From the rounds of a run to the files of the days. The source, the other sinks and the way to stop do anything at all,
except that only the sink of the journal changes the journal and its files (`Plan`). A round in which the collector
answers is one export of its batch, on the day that the clock shows when the journal is called; a round in which it does
not leaves the files (`kept_exchange`). So after a run the files have the batches of all rounds (`kept_run`), except that
a round whose batch has a sample without a line ends with that sample, and that a round is lost if the clock shows no date
for it, or if the journal begins with a closed handle under its date (`a_round_may_be_cut_off_or_lost`).
-/
namespace CpuLoad.JournaledRounds
open CpuLoad.Calendar CpuLoad.CollectedBatch CpuLoad.Commands CpuLoad.DailyFiles CpuLoad.FaithfulFiles CpuLoad.FilePlaces
  CpuLoad.HeldLines CpuLoad.Journal CpuLoad.JournalSite CpuLoad.JsonLine CpuLoad.JsonValues CpuLoad.Outcome
  CpuLoad.RoundTrace CpuLoad.Rounds

/-! ### What a run consists of -/

section
variable {η α : Type}

/-- An operation of a run that leaves the journal and its files. -/
def Spares (x : RunM (StateM (Site η)) α) : Prop :=
  ∀ state site, (outcome x state site).2.1.journal = state.journal ∧ (outcome x state site).2.2.files = site.files

/-- A sink beside the one of the journal. It may fail. -/
structure Bystander (η : Type) where
  take : Sink (StateT Run (StateM (Site η)))
  spares : ∀ batch, Spares (take batch)
  goesOn : ∀ batch state site, GoesOn (outcome (take batch) state site).1

/-- What a run is set up with: a source, the sinks before and after the one of the journal, a way to stop, an interval and
a cap. -/
structure Plan (η : Type) where
  source : Source (StateM (Site η))
  quiet : QuietSource source
  perProcessor : Bool
  before : List (Bystander η)
  after : List (Bystander η)
  stop : Stop (StateT Run (StateM (Site η)))
  asks : Spares (ExceptT.lift stop.isSet)
  interval : Value
  waits : Spares (stop.wait interval)
  cap : Value

/-- What the collector answers in a round, and what the wall clock shows when the journal is called then. -/
structure Turn where
  answer : Except Fault (List Sample)
  wall : Value

namespace Turn

/-- What a round does to the journal. -/
def acts (t : Turn) : List Act :=
  match t.answer with
  | .ok batch => [.append t.wall batch]
  | .error _ => []

/-- The samples that a round collects for a day. -/
def samplesOn (d : Date) (t : Turn) : List Sample :=
  match t.answer, dateOf t.wall with
  | .ok batch, .ok today => if today = d then batch else []
  | _, _ => []

theorem samplesOn_acts (d : Date) (t : Turn) : FaithfulFiles.samplesOn d t.acts = t.samplesOn d := by
  unfold acts samplesOn
  cases t.answer with
  | error e => rfl
  | ok batch => cases dated : dateOf t.wall <;> simp [FaithfulFiles.samplesOn, Act.samplesOn, dated]

theorem dateOf_of_mem {d : Date} {t : Turn} {sample : Sample} (member : sample ∈ t.samplesOn d) :
    dateOf t.wall = .ok d := by
  unfold samplesOn at member
  split at member
  · next today _ dated =>
    split at member
    · next same => rw [dated, same]
    · cases member
  · cases member

theorem samplesOn_flatMap_acts (d : Date) (turns : List Turn) :
    FaithfulFiles.samplesOn d (turns.flatMap acts) = turns.flatMap (samplesOn d) := by
  induction turns with
  | nil => rfl
  | cons t rest ih =>
    rw [List.flatMap_cons, List.flatMap_cons, ← samplesOn_acts, ← ih, FaithfulFiles.samplesOn, List.flatMap_append]
    rfl

end Turn

/-- The number of rounds that a run reports. -/
def roundsOf : Ending → Nat
  | .stopped rounds => rounds
  | .unfinished rounds => rounds

variable {state : Run} {site : Site η} {batch : List Sample}

theorem outcome_bystanders (sinks : List (Bystander η)) (batch : List Sample) (state : Run) (site : Site η) :
    ∃ left later, outcome (dispatch batch (sinks.map Bystander.take)) state site = (.ok (), left, later) ∧
      left.journal = state.journal ∧ later.files = site.files := by
  have goes : ∀ take ∈ sinks.map Bystander.take, ∀ state site, GoesOn (outcome (take batch) state site).1 := by
    intro take member
    obtain ⟨sink, _, rfl⟩ := List.mem_map.mp member
    exact sink.goesOn batch
  have spares : ∀ take ∈ sinks.map Bystander.take, ∀ state site,
      ((outcome (take batch) state site).2.1.journal, (outcome (take batch) state site).2.2.files) =
        (state.journal, site.files) := by
    intro take member state site
    obtain ⟨sink, _, rfl⟩ := List.mem_map.mp member
    exact Prod.ext (sink.spares batch state site).1 (sink.spares batch state site).2
  obtain ⟨left, later, dispatched, same⟩ :=
    exists_dispatch_of_goesOn (fun state site => (state.journal, site.files)) goes spares state site
  exact ⟨left, later, dispatched, Prod.mk.inj same⟩

theorem dispatch_append (batch : List Sample) (front back : List (Sink (StateT Run (StateM (Site η))))) :
    dispatch batch (front ++ back) = dispatch batch front >>= fun _ => dispatch batch back := by
  induction front with
  | nil => rw [List.nil_append, dispatch, pure_bind]
  | cons sink rest ih => rw [List.cons_append, dispatch, dispatch, ih, bind_assoc]

/-! ### States after some rounds -/

variable {start : Journal} {tree : FileTree} {past : List Turn} {j : Journal}

/-- The state after some rounds: the files have what was collected in them behind what they had in a tree. -/
def Kept (start : Journal) (tree : FileTree) (past : List Turn) (state : Run) (site : Site η) : Prop :=
  ∃ j, state.journal = some j ∧ Faithful start tree (past.flatMap Turn.acts) j site.files

theorem Kept.of_same {left : Run} {later : Site η} (kept : Kept start tree past state site)
    (same : left.journal = state.journal ∧ later.files = site.files) : Kept start tree past left later := by
  obtain ⟨j, held, faithful⟩ := kept
  refine ⟨j, same.1.trans held, ?_⟩
  rw [same.2]
  exact faithful

theorem flatMap_acts_append (past : List Turn) (t : Turn) :
    (past ++ [t]).flatMap Turn.acts = past.flatMap Turn.acts ++ t.acts := by
  simp

theorem Kept.append_idle {t : Turn} (kept : Kept start tree past state site) (idle : t.acts = []) :
    Kept start tree (past ++ [t]) state site := by
  unfold Kept
  rw [flatMap_acts_append, idle, List.append_nil]
  exact kept

/-! ### Rounds -/

namespace Plan
variable (plan : Plan η)

/-- What becomes of a run after the calls of a round: it reaches the cap, or waits and goes on. -/
def rest (done : Nat) : RunM (StateM (Site η)) (Option Ending) := do
  if ← MonadExcept.ofExcept (reached plan.cap (done + 1)) then return some (.stopped (done + 1))
  plan.stop.wait plan.interval
  return none

theorem rest_cases (done : Nat) (state : Run) (site : Site η) :
    (∃ e, reached plan.cap (done + 1) = .error e ∧ outcome (plan.rest done) state site = (.error e, state, site)) ∨
      outcome (plan.rest done) state site = (.ok (some (.stopped (done + 1))), state, site) ∨
      outcome (plan.rest done) state site =
        ((outcome (plan.stop.wait plan.interval) state site).1.map fun _ => none,
          (outcome (plan.stop.wait plan.interval) state site).2) := by
  unfold rest
  rw [outcome_bind, outcome_ofExcept]
  cases reached plan.cap (done + 1) with
  | error e => exact .inl ⟨e, rfl, rfl⟩
  | ok capped =>
    rw [andThen_ok]
    cases capped with
    | true => exact .inr (.inl rfl)
    | false =>
      refine .inr (.inr ?_)
      simp only [Bool.false_eq_true, ↓reduceIte, outcome_bind]
      rcases outcome (plan.stop.wait plan.interval) state site with ⟨e | done, left, later⟩ <;> rfl

theorem spares_rest (done : Nat) : Spares (plan.rest done) := by
  intro state site
  rcases plan.rest_cases done state site with ⟨e, _, left⟩ | left | left
  · rw [left]
    exact ⟨rfl, rfl⟩
  · rw [left]
    exact ⟨rfl, rfl⟩
  · rw [left]
    exact plan.waits state site

variable [Clock (StateM η)]

def collecting : Collecting (StateT Run (StateM (Site η))) := collector plan.source plan.perProcessor

def sinks : List (Sink (StateT Run (StateM (Site η)))) :=
  plan.before.map Bystander.take ++ journalSink :: plan.after.map Bystander.take

/-- The calls of a round. -/
def exchange : RunM (StateM (Site η)) Unit := do
  dispatch (← gather [plan.collecting]) plan.sinks

/-- A round after `done` ones. It answers how the run ends if it does. -/
def round (done : Nat) : RunM (StateM (Site η)) (Option Ending) := do
  if ← ExceptT.lift plan.stop.isSet then return some (.stopped done)
  plan.exchange
  plan.rest done

/-- The collector's answer to a run at a site, and the state that it leaves. -/
def collected (state : Run) (site : Site η) : Except Fault (List Sample) × Run × Site η :=
  outcome plan.collecting.collect state site

/-- The samples that a round hands to the sinks. -/
def batchAt (state : Run) (site : Site η) : List Sample := (plan.collected state site).1.toOption.getD []

/-- The surroundings in which the journal is called, as a batch is handed to all sinks. -/
def siteFor (batch : List Sample) (state : Run) (site : Site η) : Site η :=
  (outcome (dispatch batch (plan.before.map Bystander.take)) state site).2.2

/-- What the wall clock shows then. -/
def wallFor (batch : List Sample) (state : Run) (site : Site η) : Value := wallAt (plan.siteFor batch state site)

def turn (state : Run) (site : Site η) : Turn :=
  ⟨(plan.collected state site).1,
    plan.wallFor (plan.batchAt state site) (plan.collected state site).2.1 (plan.collected state site).2.2⟩

/-- The rounds of a run after the first `done` ones, as far as they are looked at. -/
def turns (done : Nat) : Nat → Run → Site η → List Turn
  | 0, _, _ => []
  | fuel + 1, state, site =>
    match outcome (ExceptT.lift plan.stop.isSet) state site with
    | (.ok false, asked, later) =>
      plan.turn asked later ::
        match outcome (plan.round done) state site with
        | (.ok none, left, last) => turns (done + 1) fuel left last
        | _ => []
    | _ => []

/-- A run is one round after the other. -/
theorem continueFrom_succ (done fuel : Nat) :
    continueFrom [plan.collecting] plan.sinks plan.stop plan.interval plan.cap done (fuel + 1) = (do
      match ← plan.round done with
      | some ending => return ending
      | none => continueFrom [plan.collecting] plan.sinks plan.stop plan.interval plan.cap (done + 1) fuel) := by
  rw [continueFrom]
  unfold round exchange rest
  simp only [bind_assoc]
  refine bind_congr fun set => ?_
  cases set with
  | true => simp
  | false =>
    simp only [Bool.false_eq_true, ↓reduceIte, bind_assoc]
    refine bind_congr fun batch => bind_congr fun _ => bind_congr fun capped => ?_
    cases capped <;> simp

variable {plan}

theorem spares_collected (plan : Plan η) (state : Run) (site : Site η) :
    (plan.collected state site).2.1.journal = state.journal ∧ (plan.collected state site).2.2.files = site.files := by
  unfold collected collecting collector
  rw [outcome_bind, outcome_get, andThen_ok, outcome_onPart]
  exact ⟨rfl, keepsFiles_collect plan.quiet plan.perProcessor state.sampler site⟩

theorem outcome_journalSink (held : state.journal = some j) : outcome (journalSink batch) state site =
    let left := outcome (Journal.append batch : JournalM (StateM (Site η)) Unit) j site
    (left.1, { state with journal := some left.2.1 }, left.2.2) := by
  unfold journalSink
  rw [outcome_bind, outcome_get, andThen_ok, held]
  dsimp only
  rw [outcome_onPart]

/-- The collector's answer is what a round gathers, unless it is interrupted. -/
theorem outcome_gather (plan : Plan η) (state : Run) (site : Site η) : outcome (gather [plan.collecting]) state site =
    (kept [] (plan.collected state site).1, (plan.collected state site).2) := by
  have guards : outcome (guarded (.collectorFailed plan.collecting.name) [] plan.collecting.collect) state site = _ :=
    outcome_guarded _ [] plan.collecting.collect
  unfold gather
  rw [outcome_bind, guards]
  unfold collected
  cases kept [] (outcome plan.collecting.collect state site).1 with
  | error e => rfl
  | ok batch =>
    rw [andThen_ok, gather, outcome_bind, outcome_pure, andThen_ok, outcome_pure, List.append_nil]

omit [Clock (StateM η)] in
theorem files_siteFor (plan : Plan η) (batch : List Sample) (state : Run) (site : Site η) :
    (plan.siteFor batch state site).files = site.files := by
  obtain ⟨left, later, first, _, files⟩ := outcome_bystanders plan.before batch state site
  unfold siteFor
  rw [first, files]

/-- Handing a batch to all sinks does to the journal and its files what an export does that interrupts nothing. -/
theorem exists_dispatch_eq (plan : Plan η) (held : state.journal = some j) {answer : Except Fault Unit} {other : Journal}
    {later : Site η} (appended : outcome (Journal.append batch : JournalM (StateM (Site η)) Unit) j
      (plan.siteFor batch state site) = (answer, other, later)) (goes : GoesOn answer) :
    ∃ left last, outcome (dispatch batch plan.sinks) state site = (.ok (), left, last) ∧
      left.journal = some other ∧ last.files = later.files := by
  obtain ⟨reached, there, first, journal, _⟩ := outcome_bystanders plan.before batch state site
  have called : plan.siteFor batch state site = there := by
    unfold siteFor
    rw [first]
  rw [called] at appended
  have handed : outcome (journalSink batch) reached there = (answer, { reached with journal := some other }, later) := by
    rw [outcome_journalSink (journal.trans held), appended]
  have guards : outcome (guarded .sinkFailed () (journalSink batch)) reached there = _ :=
    outcome_guarded _ () (journalSink batch)
  rw [handed, kept_of_goesOn goes] at guards
  obtain ⟨left, last, others, journal', files⟩ :=
    outcome_bystanders plan.after batch { reached with journal := some other } later
  refine ⟨left, last, ?_, journal', files⟩
  unfold sinks
  rw [dispatch_append, outcome_bind, first, andThen_ok, dispatch, outcome_bind, guards]
  exact others

/-- Handing a batch to all sinks exports it once. -/
theorem kept_dispatch {t : Turn} (kept : Kept start tree past state site) (anchored : Anchored start tree)
    (acts : t.acts = [.append (plan.wallFor batch state site) batch])
    (openable : Openable start.directory tree ((past ++ [t]).flatMap Turn.acts)) :
    Kept start tree (past ++ [t]) (outcome (dispatch batch plan.sinks) state site).2.1
      (outcome (dispatch batch plan.sinks) state site).2.2 := by
  obtain ⟨j, held, faithful⟩ := kept
  unfold Kept
  rw [flatMap_acts_append, acts] at openable ⊢
  rw [← plan.files_siteFor batch state site] at faithful
  obtain ⟨other, later, appended, after⟩ := faithful_append faithful anchored openable rfl
  obtain ⟨left, last, dispatched, held', files⟩ := plan.exists_dispatch_eq held appended (goesOn_answer _)
  rw [dispatched]
  refine ⟨other, held', ?_⟩
  rw [files]
  exact after

theorem kept_dispatch_nothing (kept : Kept start tree past state site) :
    Kept start tree past (outcome (dispatch [] plan.sinks) state site).2.1
      (outcome (dispatch [] plan.sinks) state site).2.2 := by
  obtain ⟨j, held, faithful⟩ := kept
  have nothing : outcome (Journal.append [] : JournalM (StateM (Site η)) Unit) j (plan.siteFor [] state site) =
      (.ok (), j, plan.siteFor [] state site) := rfl
  obtain ⟨left, last, dispatched, held', files⟩ := plan.exists_dispatch_eq held nothing (goesOn_ok ())
  rw [dispatched]
  refine ⟨j, held', ?_⟩
  rw [files, files_siteFor]
  exact faithful

/-- A round in which the collector answers exports its batch, and any other round leaves the files. -/
theorem kept_exchange (before : Kept start tree past state site) (anchored : Anchored start tree)
    (openable : Openable start.directory tree ((past ++ [plan.turn state site]).flatMap Turn.acts)) :
    Kept start tree (past ++ [plan.turn state site]) (outcome plan.exchange state site).2.1
      (outcome plan.exchange state site).2.2 := by
  have asked := before.of_same (plan.spares_collected state site)
  have gathered : outcome plan.exchange state site = _ :=
    outcome_bind.trans (congrArg (andThen · _) (plan.outcome_gather state site))
  cases answer : (plan.collected state site).1 with
  | ok batch =>
    have acts : (plan.turn state site).acts =
        [.append (plan.wallFor batch (plan.collected state site).2.1 (plan.collected state site).2.2) batch] := by
      simp [Turn.acts, turn, batchAt, answer, Except.toOption]
    rw [gathered, answer, kept, andThen_ok]
    exact kept_dispatch asked anchored acts openable
  | error e =>
    have idle : (plan.turn state site).acts = [] := by simp [Turn.acts, turn, answer]
    rw [gathered, answer, kept]
    by_cases failure : e.isFailure
    · rw [if_pos failure, andThen_ok]
      exact (kept_dispatch_nothing asked).append_idle idle
    · rw [if_neg failure, andThen_error]
      exact asked.append_idle idle

/-- A run that is told to stop has no further round. -/
theorem outcome_round_told {asked : Run} {later : Site η} (done : Nat)
    (told : outcome (ExceptT.lift plan.stop.isSet) state site = (.ok true, asked, later)) :
    outcome (plan.round done) state site = (.ok (some (.stopped done)), asked, later) := by
  unfold round
  rw [outcome_bind, told]
  rfl

theorem outcome_round_untold {asked : Run} {later : Site η} (done : Nat)
    (untold : outcome (ExceptT.lift plan.stop.isSet) state site = (.ok false, asked, later)) :
    outcome (plan.round done) state site =
      andThen (outcome plan.exchange asked later) fun _ => outcome (plan.rest done) := by
  unfold round
  rw [outcome_bind, untold, andThen_ok]
  simp only [Bool.false_eq_true, ↓reduceIte, outcome_bind]

theorem kept_round {asked : Run} {later : Site η} (kept : Kept start tree past state site)
    (anchored : Anchored start tree) (done : Nat)
    (untold : outcome (ExceptT.lift plan.stop.isSet) state site = (.ok false, asked, later))
    (openable : Openable start.directory tree ((past ++ [plan.turn asked later]).flatMap Turn.acts)) :
    Kept start tree (past ++ [plan.turn asked later]) (outcome (plan.round done) state site).2.1
      (outcome (plan.round done) state site).2.2 := by
  have same := plan.asks state site
  rw [untold] at same
  have exchanged := kept_exchange (kept.of_same same) anchored openable
  rw [outcome_round_untold done untold]
  generalize outcome plan.exchange asked later = left at exchanged ⊢
  rcases left with ⟨e | _, left, last⟩
  · exact exchanged
  · exact exchanged.of_same (plan.spares_rest done left last)

theorem ending_of_round {asked : Run} {later : Site η} {done : Nat} {ending : Ending}
    (untold : outcome (ExceptT.lift plan.stop.isSet) state site = (.ok false, asked, later))
    (ends : (outcome (plan.round done) state site).1 = .ok (some ending)) : ending = .stopped (done + 1) := by
  rw [outcome_round_untold done untold] at ends
  generalize outcome plan.exchange asked later = left at ends
  rcases left with ⟨e | _, left, last⟩
  · cases ends
  · rw [andThen_ok] at ends
    rcases plan.rest_cases done left last with ⟨e, _, stops⟩ | stops | goes
    · rw [stops] at ends
      cases ends
    · rw [stops] at ends
      cases ends
      rfl
    · rw [goes] at ends
      obtain ⟨_, _, other⟩ := eq_ok_of_map ends
      cases other

/-- A run that reaches the cap after its next round has that round alone. -/
theorem turns_of_capped {asked : Run} {later : Site η} {done : Nat} (fuel : Nat)
    (untold : outcome (ExceptT.lift plan.stop.isSet) state site = (.ok false, asked, later))
    (capped : reached plan.cap (done + 1) = .ok true) :
    plan.turns done (fuel + 1) state site = [plan.turn asked later] := by
  have ends : (outcome (plan.round done) state site).1 ≠ .ok none := by
    rw [outcome_round_untold done untold]
    generalize outcome plan.exchange asked later = left
    rcases left with ⟨e | _, left, last⟩
    · nofun
    · rw [andThen_ok, rest, outcome_bind, outcome_ofExcept, capped]
      nofun
  unfold turns
  rw [untold]
  dsimp only
  generalize outcome (plan.round done) state site = left at ends ⊢
  rcases left with ⟨e | ending, left, last⟩
  · rfl
  · cases ending with
    | none => exact absurd rfl ends
    | some ending => rfl

/-- The files have what was collected in all rounds of a run, and the run reports how many rounds these are. -/
theorem kept_continueFrom (done fuel : Nat) (kept : Kept start tree past state site) (anchored : Anchored start tree)
    (openable : Openable start.directory tree ((past ++ plan.turns done fuel state site).flatMap Turn.acts)) :
    let left := outcome (continueFrom [plan.collecting] plan.sinks plan.stop plan.interval plan.cap done fuel) state site
    Kept start tree (past ++ plan.turns done fuel state site) left.2.1 left.2.2 ∧
      ∀ ending, left.1 = .ok ending → roundsOf ending = done + (plan.turns done fuel state site).length := by
  induction fuel generalizing done past state site with
  | zero =>
    dsimp only
    rw [turns, continueFrom, outcome_pure, List.append_nil]
    refine ⟨kept, ?_⟩
    rintro ending ⟨⟩
    rfl
  | succ fuel ih =>
    dsimp only
    rw [continueFrom_succ, outcome_bind]
    obtain ⟨set, asked, later, told⟩ : ∃ set asked later,
        outcome (ExceptT.lift plan.stop.isSet) state site = (.ok set, asked, later) := ⟨_, _, _, rfl⟩
    unfold turns at openable ⊢
    rw [told] at openable ⊢
    cases set with
    | true =>
      have same := plan.asks state site
      rw [told] at same
      rw [outcome_round_told done told]
      refine ⟨by simpa using kept.of_same same, ?_⟩
      rintro ending ⟨⟩
      rfl
    | false =>
      dsimp only at openable ⊢
      rw [List.append_cons] at openable
      have begins := openable
      rw [List.flatMap_append] at begins
      have first := kept_round kept anchored done told (openable_of_append begins)
      have ends (ending : Ending) (ended : (outcome (plan.round done) state site).1 = .ok (some ending)) :
          ending = .stopped (done + 1) := ending_of_round told ended
      rw [List.append_cons]
      generalize outcome (plan.round done) state site = left at first ends openable ⊢
      rcases left with ⟨e | ending, left, last⟩
      · rw [List.append_nil]
        exact ⟨first, nofun⟩
      · cases ending with
        | none =>
          have ⟨others, rounds⟩ := ih (done + 1) first openable
          refine ⟨others, ?_⟩
          intro ending ended
          rw [rounds ending ended, List.length_cons]
          dsimp only
          omega
        | some ending =>
          rw [List.append_nil]
          refine ⟨first, ?_⟩
          rintro _ ⟨⟩
          rw [ends ending rfl]
          rfl

/-- The samples that the rounds of a run collect for a day. -/
def collectedOn (plan : Plan η) (d : Date) (fuel : Nat) (state : Run) (site : Site η) : List Sample :=
  (plan.turns 0 fuel state site).flatMap (Turn.samplesOn d)

/-- A turn of a run is the one of a round at some state. -/
theorem exists_turn_of_mem_turns {done fuel : Nat} {state : Run} {site : Site η} {t : Turn}
    (member : t ∈ plan.turns done fuel state site) : ∃ there here, t = plan.turn there here := by
  induction fuel generalizing done state site with
  | zero => cases member
  | succ fuel ih =>
    unfold turns at member
    split at member
    · rcases List.mem_cons.mp member with rfl | member
      · exact ⟨_, _, rfl⟩
      · split at member
        · exact ih member
        · cases member
    · cases member

/-- The samples of a batch have their lines unless JSON has no form for the time, or for the load average. -/
theorem exists_lineOf_iff_of_collected {state : Run} {site : Site η} {batch : List Sample}
    (collected : (plan.collected state site).1 = .ok batch) :
    ∀ s ∈ batch, (∃ line, lineOf s = .ok line) ↔ hasForm s.timestamp ∧ hasForm s.value := by
  unfold Plan.collected collecting collector at collected
  rw [outcome_bind, outcome_get, andThen_ok, outcome_onPart] at collected
  obtain ⟨f, last, rfl, few⟩ := samples_of_collect (Prod.ext collected rfl)
  intro s member
  rcases List.mem_append.mp member with load | rest
  · obtain ⟨name, x, processor, description, rfl⟩ := exists_loadSample load
    exact exists_lineOf_iff_of_texts rfl rfl rfl rfl
  · rcases few with rfl | ⟨average, rfl⟩
    · cases rest
    · rw [List.mem_singleton.mp rest]
      exact exists_lineOf_iff_of_texts rfl rfl rfl rfl

/-- For a day something is collected only if the wall clock shows that day somewhere. -/
theorem exists_site_of_collectedOn {d : Date} {fuel : Nat} {state : Run} {site : Site η}
    (collected : plan.collectedOn d fuel state site ≠ []) : ∃ there : Site η, dateOf (wallAt there) = .ok d := by
  obtain ⟨sample, member⟩ := List.exists_mem_of_ne_nil _ collected
  obtain ⟨t, known, own⟩ := List.mem_flatMap.mp member
  obtain ⟨_, _, rfl⟩ := exists_turn_of_mem_turns known
  exact ⟨_, Turn.dateOf_of_mem own⟩

end Plan

/-- The line of a sample says nothing of its description. -/
theorem lineOf_description {s : Sample} {line : String} (has : lineOf s = .ok line) {description : Value}
    (ends : description.beginsAgain = false) : lineOf { s with description } = .ok line := by
  have same : recordOf { s with description } = recordOf s := rfl
  unfold lineOf at has ⊢
  rw [same, ends, Bool.or_false]
  split at has
  · cases has
  · next whole =>
    rw [Bool.or_eq_true, not_or] at whole
    rw [if_neg whole.1]
    exact has

variable [Clock (StateM η)]

/-- The samples of the rounds of a run are what is exported in it. -/
theorem Plan.samplesOn_turns (plan : Plan η) (d : Date) (fuel : Nat) (state : Run) (site : Site η) :
    FaithfulFiles.samplesOn d ((plan.turns 0 fuel state site).flatMap Turn.acts) = plan.collectedOn d fuel state site :=
  Turn.samplesOn_flatMap_acts d _

theorem Plan.kept_run (plan : Plan η) {state : Run} {site : Site η} (fuel : Nat) (begun : state.journal = some start)
    (anchored : Anchored start site.files) (openable : ∀ d, plan.collectedOn d fuel state site ≠ [] →
      ∃ opened, site.files.openEnd (namesOfDay start.directory d) = .ok opened) :
    let left := outcome (Rounds.run [plan.collecting] plan.sinks plan.stop plan.interval plan.cap fuel) state site
    Openable start.directory site.files ((plan.turns 0 fuel state site).flatMap Turn.acts) ∧
      Kept start site.files (plan.turns 0 fuel state site) left.2.1 left.2.2 ∧
      ∀ ending, left.1 = .ok ending → roundsOf ending = (plan.turns 0 fuel state site).length := by
  have needed : Openable start.directory site.files (([] ++ plan.turns 0 fuel state site).flatMap Turn.acts) := by
    intro d exported
    rw [List.nil_append, plan.samplesOn_turns] at exported
    exact openable d exported
  have kept := Plan.kept_continueFrom 0 fuel ⟨start, begun, faithful_start anchored⟩ anchored needed
  rw [← outcome_run, List.nil_append, Nat.zero_add] at kept
  exact ⟨needed, kept⟩

/-- After a run over files of which those that are needed can be opened, by a journal that has no handle or one on a file
that is there: the file of a day has what it had at first, then what the journal held back for it, and then the lines of
what was collected for that day, round by round, and nothing else is new or different. For a day are collected the samples
of all rounds in which the collector answers and the clock then shows that day to the journal. If each of them has a line,
these are the lines of all of them. Of a round that reaches a sample without a line they are the lines before it, and a part
of them may be held back until a later round of the day is whole. A sample has a line exactly if JSON has a form for the
time of its round and for its value, and the line says nothing of its description. -/
theorem files_hold_what_was_collected (plan : Plan η) (state : Run) (site : Site η) (fuel : Nat) {start : Journal}
    (begun : state.journal = some start) (anchored : Anchored start site.files)
    (openable : ∀ d, plan.collectedOn d fuel state site ≠ [] →
      ∃ opened, site.files.openEnd (namesOfDay start.directory d) = .ok opened) :
    let left := outcome (Rounds.run [plan.collecting] plan.sinks plan.stop plan.interval plan.cap fuel) state site
    let acts := (plan.turns 0 fuel state site).flatMap Turn.acts
    (∃ j, left.2.1.journal = some j ∧ ∀ d place, site.files.placeOf (namesOfDay start.directory d) = .ok place →
      ∃ passed, passed ++ heldOn d j = heldOn d start ++ writtenOn d acts ∧
        left.2.2.files.node? place = (if plan.collectedOn d fuel state site = [] ∧ heldOn d start = ""
          then site.files.node? place else some (.file (bytesAt site.files place ++ passed.toUTF8))) ∧
        (EndsWhole d acts → passed = heldOn d start ++ writtenOn d acts) ∧
        (plan.collectedOn d fuel state site ≠ [] → check (plan.collectedOn d fuel state site) = .ok () →
          passed = heldOn d start ++ linesOf (plan.collectedOn d fuel state site))) ∧
    (∀ place, left.2.2.files.node? place ≠ site.files.node? place →
      ∃ d, (plan.collectedOn d fuel state site ≠ [] ∨ heldOn d start ≠ "") ∧
        site.files.placeOf (namesOfDay start.directory d) = .ok place) ∧
    (∀ ending, left.1 = .ok ending → roundsOf ending = (plan.turns 0 fuel state site).length) ∧
    (∀ t ∈ plan.turns 0 fuel state site, ∀ batch, t.answer = .ok batch → ∀ s ∈ batch,
      (∃ line, lineOf s = .ok line) ↔ hasForm s.timestamp ∧ hasForm s.value) ∧
    ∀ (s : Sample) (line : String) (description : Value), lineOf s = .ok line → description.beginsAgain = false →
      lineOf { s with description } = .ok line := by
  intro left acts
  obtain ⟨needed, ⟨j, held, faithful⟩, rounds⟩ := plan.kept_run fuel begun anchored openable
  have samples (d : Date) : FaithfulFiles.samplesOn d acts = plan.collectedOn d fuel state site :=
    plan.samplesOn_turns d fuel state site
  have quiet {d : Date} {place : List String} (leads : site.files.placeOf (namesOfDay start.directory d) = .ok place)
      (none : plan.collectedOn d fuel state site = [] ∧ heldOn d start = "") :
      left.2.2.files.node? place = site.files.node? place :=
    faithful.node_of_quiet anchored ((samples d).trans none.1) none.2 leads
  refine ⟨⟨j, held, fun d place leads => ?_⟩, fun place changed => ?_, rounds, fun t known batch answer => ?_,
    fun s line description has ends => lineOf_description has ends⟩
  · obtain ⟨passed, whole, bytes⟩ := faithful.bytes anchored leads
    have ends (last : EndsWhole d acts) : passed = heldOn d start ++ writtenOn d acts := by
      rw [← whole, faithful.settled d last, String.append_empty]
    refine ⟨passed, whole, ?_, ends, fun collected complete => ?_⟩
    · by_cases none : plan.collectedOn d fuel state site = [] ∧ heldOn d start = ""
      · rw [if_pos none, quiet leads none]
      · have needs : Needs start acts d := by
          by_contra unneeded
          obtain ⟨unexported, _⟩ := not_or.mp unneeded
          refine none ⟨(samples d).symm.trans (not_not.mp unexported), ?_⟩
          exact heldOn_of_not_needs unneeded
        rw [if_neg none]
        obtain ⟨_, _, here⟩ := faithful.filed d place needs leads
        rw [here, ← bytes, bytesAt_eq here]
    · rw [← samples] at collected complete
      rw [ends (endsWhole_of_check collected complete), writtenOn_eq complete, samples]
  · obtain ⟨d, written, leads⟩ := faithful.exists_of_changed anchored changed
    rw [samples] at written
    exact ⟨d, written, leads⟩
  · obtain ⟨there, here, rfl⟩ := Plan.exists_turn_of_mem_turns known
    exact Plan.exists_lineOf_iff_of_collected answer

end

/-! ### Runs of a few rounds -/

/-- How often somebody has looked at a wall clock. -/
structure Looks (shows : Nat → Value) where
  count : Nat

section
variable {shows : Nat → Value}

/-- A clock that shows something at each look. -/
instance : Clock (StateM (Looks shows)) where
  milliseconds := return .int (1000 * (← get).count)
  wallSeconds := modifyGet fun looks => (shows looks.count, ⟨looks.count + 1⟩)

/-- A source of a load average that depends on the number of looks at the clock. -/
def averaging (average : Nat → Except Fault Value) : Source (StateM (Site (Looks shows))) where
  name := "averaging"
  logical := 1
  physical := 1
  identity := return default
  aggregate := return .list [.int 1, .int 0, .int 0, .int 1]
  perProcessor := return .list [.list [.int 1, .int 0, .int 0, .int 1]]
  direct := none
  uptime := return .int 0
  averages _ := ExceptT.mk fun site => ((average site.rest.count).map fun v => [v], site)

/-- A sink that always fails. -/
def brokenSink : Bystander (Looks shows) where
  take _ := throw (.reported .system "disk full")
  spares _ _ _ := ⟨rfl, rfl⟩
  goesOn _ _ _ := goesOn_error rfl

def rounds (average : Nat → Except Fault Value) (cap : Value) : Plan (Looks shows) where
  source := averaging average
  quiet := ⟨fun _ => rfl, fun _ => rfl, nofun, fun _ _ => rfl⟩
  perProcessor := true
  before := [brokenSink]
  after := []
  stop := ⟨return false, fun _ => return⟩
  asks _ _ := ⟨rfl, rfl⟩
  interval := .float 1.0
  waits _ _ := ⟨rfl, rfl⟩
  cap

/-- The files of a shelf, on a system that passes nothing on before it has to. -/
def evening : Site (Looks shows) := ⟨shelf.tree, fun _ => 0, ⟨0⟩⟩

end

def november : Date := ⟨2023, 11, 14⟩

/-- A journal that has the file of a day open. -/
def opened : Journal := ⟨"out", .live "", some november⟩

def atRest : Run := { sampler := .blank 1 default (.float 950.0) (.float 200.0), journal := some opened }

/-- A run whose journal closed its file and could not open that of the day. -/
def stranded : Run := { atRest with journal := some ⟨"out", .closed, some november⟩ }

theorem anchored_opened : Anchored opened shelf.tree :=
  .inr ⟨"", november, _, _, rfl, rfl, by decide, place_of_first, rfl⟩

theorem isOk_iff {r : Except Fault Unit} : r.isOk ↔ r = .ok () := by
  cases r with
  | error e => exact ⟨nofun, nofun⟩
  | ok done => exact ⟨fun _ => rfl, fun _ => rfl⟩

/-- One round over a source of a load average, with a clock that stands still. -/
def once (average wall : Value) : Plan (Looks fun _ => wall) := rounds (fun _ => .ok average) (.int 1)

section
variable (average : Value) {wall : Value}

theorem turns_once (wall : Value) (state : Run) : (once average wall).turns 0 9 state evening =
    [⟨((once average wall).collected state evening).1, wall⟩] := Plan.turns_of_capped 8 rfl rfl

/-- A round whose batch has samples is one in which the collector answers. -/
theorem acts_once {average : Value} {state : Run} (full : ((once average wall).batchAt state evening).length = 4) :
    (once average wall).turns 0 9 state evening = [⟨.ok ((once average wall).batchAt state evening), wall⟩] := by
  rw [turns_once]
  unfold Plan.batchAt at full ⊢
  cases answer : ((once average wall).collected state evening).1 with
  | error e =>
    rw [answer] at full
    cases full
  | ok batch => rfl

theorem collectedOn_once (today : dateOf wall = .ok november) :
    (once average wall).collectedOn november 9 atRest evening = (once average wall).batchAt atRest evening := by
  unfold Plan.collectedOn Plan.batchAt
  rw [turns_once, List.flatMap_singleton, Turn.samplesOn, today]
  cases ((once average wall).collected atRest evening).1 with
  | error e => rfl
  | ok batch => exact if_pos rfl

theorem openable_once (today : dateOf wall = .ok november) (d : Date)
    (collected : (once average wall).collectedOn d 9 atRest evening ≠ []) :
    ∃ tree, shelf.tree.openEnd (namesOfDay opened.directory d) = .ok tree := by
  obtain ⟨there, shown⟩ := Plan.exists_site_of_collectedOn collected
  obtain rfl : november = d := Except.ok.inj (today.symm.trans shown)
  exact openEnd_of_free place_of_first nofun

end

/-- The text of the samples of the loads in such a round. -/
def loadLines : String :=
  "\x7b\"name\": \"system.cpu.load_ratio\", \"value\": 0.5, \"unit\": \"1\", \"timestamp\": 1700000000, " ++
  "\"labels\": \x7b\"cpu\": \"total\"\x7d\x7d\n" ++
  "\x7b\"name\": \"system.cpu.load_ratio_ticks\", \"value\": 0.5, \"unit\": \"1\", \"timestamp\": 1700000000, " ++
  "\"labels\": \x7b\"cpu\": \"total\"\x7d\x7d\n" ++
  "\x7b\"name\": \"system.cpu.load_ratio\", \"value\": 0.5, \"unit\": \"1\", \"timestamp\": 1700000000, " ++
  "\"labels\": \x7b\"cpu\": \"0\"\x7d\x7d\n"

def averageLine : String :=
  "\x7b\"name\": \"system.cpu.load_avg_1m\", \"value\": 0.25, \"unit\": \"1\", \"timestamp\": 1700000000, " ++
  "\"labels\": \x7b\x7d\x7d\n"

/-- What a run of such a round leaves. -/
def leftFrom (state : Run) (average wall : Value) : Except Fault Ending × Run × Site (Looks fun _ => wall) :=
  outcome (Rounds.run [(once average wall).collecting] (once average wall).sinks (once average wall).stop
    (once average wall).interval (once average wall).cap 9) state evening

theorem files_hold_what_was_collected_once :
    (leftFrom atRest (.float 0.25) (.int 1700000000)).2.2.files.node? ["out", "cpu-load-2023-11-14.jsonl"] =
      some (.file ("old\n".toUTF8 ++ (loadLines ++ averageLine).toUTF8)) := by
  have batch := collectedOn_once (.float 0.25) (rfl : dateOf (.int 1700000000) = .ok november)
  have text : linesOf ((once (.float 0.25) (.int 1700000000)).batchAt atRest evening) = loadLines ++ averageLine := by
    decide +kernel
  have full : ((once (.float 0.25) (.int 1700000000)).batchAt atRest evening).length = 4 := by decide +kernel
  have whole : (check ((once (.float 0.25) (.int 1700000000)).batchAt atRest evening)).isOk := by decide +kernel
  have nonempty : (once (.float 0.25) (.int 1700000000)).batchAt atRest evening ≠ [] := by
    intro empty
    rw [empty] at full
    cases full
  have law := files_hold_what_was_collected (once (.float 0.25) (.int 1700000000)) atRest evening 9 rfl anchored_opened
    (openable_once _ rfl)
  obtain ⟨j, _, days⟩ := law.1
  obtain ⟨passed, _, here, _, lines⟩ := days november _ place_of_first
  rw [batch] at here lines
  rw [if_neg fun none => nonempty none.1, lines nonempty (isOk_iff.mp whole), text] at here
  exact here

theorem heldOn_opened (d : Date) : heldOn d opened = "" := by
  unfold heldOn opened
  exact ite_self ""

section
variable {average wall : Value}

/-- The file of such a round once the journal is closed. -/
theorem closed_once (today : dateOf wall = .ok november)
    (full : ((once average wall).batchAt atRest evening).length = 4) :
    ∃ j, (leftFrom atRest average wall).2.1.journal = some j ∧
      (outcome (Journal.close : JournalM (StateM _) Unit) j (leftFrom atRest average wall).2.2).2.2.files.node?
        ["out", "cpu-load-2023-11-14.jsonl"] =
          some (.file ("old\n".toUTF8 ++ (linesOf ((once average wall).batchAt atRest evening)).toUTF8)) := by
  obtain ⟨needed, kept, _⟩ := (once average wall).kept_run 9 (rfl : atRest.journal = some opened) anchored_opened
    (openable_once average today)
  rw [acts_once full] at needed kept
  obtain ⟨j, held, faithful⟩ := kept
  have closed := faithful_close (leftFrom atRest average wall).2.2 faithful anchored_opened needed
  obtain ⟨passed, whole, here⟩ := closed.filed november _ (.inr ⟨"", rfl, rfl⟩) place_of_first
  have exported : [Turn.mk (.ok ((once average wall).batchAt atRest evening)) wall].flatMap Turn.acts =
      [.append wall ((once average wall).batchAt atRest evening)] := rfl
  have none : heldOn november { j with handle := .none } = "" := heldOn_none rfl
  rw [none, heldOn_opened, exported, writtenOn_append, writtenOn, samplesOn_today today, if_pos rfl] at whole
  simp only [writtenOn, Act.samplesOn, linesOf, String.append_empty, String.empty_append] at whole
  refine ⟨j, held, ?_⟩
  have old : bytesAt shelf.tree ["out", "cpu-load-2023-11-14.jsonl"] = "old\n".toUTF8 := rfl
  rw [outcome_close, ← whole, ← old]
  exact here

/-- Such a round is lost if the clock shows no date. -/
theorem lost_once {e : Fault} (undated : dateOf wall = .error e) (place : List String) :
    (leftFrom atRest average wall).2.2.files.node? place = shelf.tree.node? place := by
  have none (d : Date) : (once average wall).collectedOn d 9 atRest evening = [] := by
    by_contra collected
    obtain ⟨there, today⟩ := Plan.exists_site_of_collectedOn collected
    cases undated.symm.trans today
  obtain ⟨_, ⟨j, _, faithful⟩, _⟩ := (once average wall).kept_run 9 (rfl : atRest.journal = some opened) anchored_opened
    fun d collected => absurd (none d) collected
  by_contra changed
  obtain ⟨d, written, _⟩ := faithful.exists_of_changed anchored_opened changed
  rcases written with exported | held
  · exact exported (((once average wall).samplesOn_turns d 9 atRest evening).trans (none d))
  · exact held (heldOn_opened d)

end

/-- If the load average has more digits than are written, then its round leaves the lines of the loads alone. If the clock
shows a time beyond the last date, then its round leaves nothing. Neither does one of a journal with a closed handle under
the date of the day, although the file can be opened. -/
theorem a_round_may_be_cut_off_or_lost :
    ((∃ batch, (once (.int (10 ^ 4300 : Nat)) (.int 1700000000)).turns 0 9 atRest evening =
        [⟨.ok batch, .int 1700000000⟩] ∧ batch.length = 4) ∧
      ∃ j, (leftFrom atRest (.int (10 ^ 4300 : Nat)) (.int 1700000000)).2.1.journal = some j ∧
        (outcome (Journal.close : JournalM (StateM _) Unit) j
          (leftFrom atRest (.int (10 ^ 4300 : Nat)) (.int 1700000000)).2.2).2.2.files.node?
            ["out", "cpu-load-2023-11-14.jsonl"] = some (.file ("old\n".toUTF8 ++ loadLines.toUTF8))) ∧
    ((∃ batch, (once (.float 0.25) (.int 253402300800)).turns 0 9 atRest evening =
        [⟨.ok batch, .int 253402300800⟩] ∧ batch.length = 4) ∧
      ∀ place, (leftFrom atRest (.float 0.25) (.int 253402300800)).2.2.files.node? place = shelf.tree.node? place) ∧
    (∃ batch, (once (.float 0.25) (.int 1700000000)).turns 0 9 stranded evening = [⟨.ok batch, .int 1700000000⟩] ∧
        batch.length = 4) ∧
      bytesAt (leftFrom stranded (.float 0.25) (.int 1700000000)).2.2.files ["out", "cpu-load-2023-11-14.jsonl"] =
        "old\n".toUTF8 := by
  have cut : ((once (.int (10 ^ 4300 : Nat)) (.int 1700000000)).batchAt atRest evening).length = 4 := by decide +kernel
  have text : linesOf ((once (.int (10 ^ 4300 : Nat)) (.int 1700000000)).batchAt atRest evening) = loadLines := by
    decide +kernel
  have lost : ((once (.float 0.25) (.int 253402300800)).batchAt atRest evening).length = 4 := by decide +kernel
  have shut : ((once (.float 0.25) (.int 1700000000)).batchAt stranded evening).length = 4 := by decide +kernel
  have today : dateOf (.int 1700000000) = .ok november := rfl
  have undated : dateOf (.int 253402300800) = .error .notNumber := rfl
  refine ⟨⟨⟨_, acts_once cut, cut⟩, ?_⟩, ⟨⟨_, acts_once lost, lost⟩, fun place => lost_once undated place⟩,
    ⟨_, acts_once shut, shut⟩, by decide +kernel⟩
  rw [← text]
  exact closed_once today cut

end CpuLoad.JournaledRounds
