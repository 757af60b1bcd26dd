import CpuLoad.Collector
import CpuLoad.Proofs.DailyFiles
import CpuLoad.Proofs.RoundTrace

/-!
A journal in surroundings of any kind. The files that the journal alone writes stand apart from everything else (`Site`),
which changes as it likes, also whenever somebody looks at a clock. Rounds of collection leave the files if their source
does (`keepsFiles_collect`). An export over files that can be opened never interrupts anything, whatever its samples and
the clock are (`goesOn_answer`).
-/
namespace CpuLoad.JournalSite
open CpuLoad.Calendar CpuLoad.Channel CpuLoad.DailyFiles CpuLoad.FaithfulFiles CpuLoad.HeldLines CpuLoad.JsonLine
  CpuLoad.Outcome CpuLoad.RoundTrace CpuLoad.Sampling

/-! ### Surroundings with files -/

/-- The surroundings of a run: the files that the journal alone writes, how many characters are passed on to them at once
of each text that is yet to be written, and everything else. -/
structure Site (η : Type) where
  files : FileTree
  passing : Nat → Nat
  rest : η

section
variable {η α : Type}

def onRest (x : StateM η α) : StateM (Site η) α := do
  let site ← get
  let (a, rest) := x.run site.rest
  set { site with rest }
  return a

def onFiles (x : StateM Disk α) : StateM (Site η) α := do
  let site ← get
  let (a, disk) := x.run ⟨.null, site.files, site.passing⟩
  set { site with files := disk.tree, passing := disk.passing }
  return a

/-- The clocks are not among the files, and a reading may change everything else. -/
instance [Clock (StateM η)] : Clock (StateM (Site η)) where
  milliseconds := onRest Clock.milliseconds
  wallSeconds := onRest Clock.wallSeconds

instance : Files (StateM (Site η)) where
  read path := onFiles (Files.read path)
  isPresent path := onFiles (Files.isPresent path)
  makeDirectory path := onFiles (Files.makeDirectory path)
  openEnd path := onFiles (Files.openEnd path)
  write path text := onFiles (Files.write path text)
  append path text := onFiles (Files.append path text)

instance [Clock (StateM η)] : Storage (Site η) where
  tree := Site.files
  write_run _ text site := ⟨_, _, front_append_behind (site.passing 0) text, rfl⟩
  tree_wallSeconds _ := rfl
  tree_append _ _ _ := rfl
  openEnd_ok path site opened opens := by
    have run : (Files.openEnd path : StateM (Site η) (Except FileFault Unit)).run site =
        let left := (⟨.null, site.files, site.passing⟩ : Disk).openEnd path
        (left.1, { site with files := left.2.tree, passing := left.2.passing }) := rfl
    refine ⟨{ site with files := opened }, ?_, rfl⟩
    rw [run, Disk.openEnd, opens]

end

/-! ### Operations that leave the files -/

section
variable {η ρ α β : Type}

def KeepsFiles (x : ChannelM (StateM (Site η)) ρ α) : Prop :=
  ∀ state site, (outcome x state site).2.2.files = site.files

namespace KeepsFiles
variable {x : ChannelM (StateM (Site η)) ρ α} {f : α → ChannelM (StateM (Site η)) ρ β}

theorem pure (a : α) : KeepsFiles (Pure.pure a : ChannelM (StateM (Site η)) ρ α) := fun _ _ => rfl

theorem get : KeepsFiles (MonadState.get : ChannelM (StateM (Site η)) ρ ρ) := fun _ _ => rfl

theorem throw (e : Fault) : KeepsFiles (MonadExcept.throw e : ChannelM (StateM (Site η)) ρ α) := fun _ _ => rfl

theorem ofExcept (r : Except Fault α) : KeepsFiles (MonadExcept.ofExcept r : ChannelM (StateM (Site η)) ρ α) := by
  intro state site
  rw [outcome_ofExcept]

theorem note (n : Notice) : KeepsFiles (CpuLoad.note n : ChannelM (StateM (Site η)) ρ Unit) := by
  intro state site
  rw [outcome_note]

theorem bind (first : KeepsFiles x) (next : ∀ a, KeepsFiles (f a)) : KeepsFiles (x >>= f) := by
  intro state site
  rw [outcome_bind]
  have kept := first state site
  generalize outcome x state site = left at kept ⊢
  rcases left with ⟨e | a, state, site'⟩
  · exact kept
  · exact (next a state site').trans kept

theorem ite {c : Prop} [Decidable c] {y : ChannelM (StateM (Site η)) ρ α} (yes : KeepsFiles x) (no : KeepsFiles y) :
    KeepsFiles (if c then x else y) := by
  by_cases here : c
  · rwa [if_pos here]
  · rwa [if_neg here]

/-- What a store takes from a pull is no file. -/
theorem refresh {σ : Type} {name : String} {accept : Judgement σ} {threshold now : Value} {store : ρ → Store Value σ}
    {query : Except Fault σ → ρ → Except Fault (σ × σ) × ρ} {pull : ChannelM (StateM (Site η)) ρ σ}
    (pulled : KeepsFiles pull) : KeepsFiles (Channel.refresh name accept threshold now store query pull) := by
  intro state site
  rw [outcome_refresh]
  cases (store state).due threshold now with
  | error e => rfl
  | ok late =>
    cases late with
    | false => rfl
    | true => exact pulled state site

theorem reading {kept : Float} {poll : ChannelM (StateM (Site η)) ρ Value} (polled : KeepsFiles poll) :
    KeepsFiles (Channel.reading kept poll) := by
  intro state site
  rw [outcome_reading]
  have kept := polled state site
  generalize outcome poll state site = left at kept ⊢
  rcases left with ⟨e | v, state, site'⟩
  · exact kept
  · exact kept

theorem measure {hold now : Value} {meter : Meter Value} {step : Except Fault (Option Float) → ρ → Except Fault Float × ρ}
    {poll : ChannelM (StateM (Site η)) ρ Value} (polled : KeepsFiles poll) :
    KeepsFiles (Channel.measure hold now meter step poll) := by
  intro state site
  rw [outcome_measure]
  cases meter.due hold now with
  | error e => rfl
  | ok due =>
    cases due with
    | false => rfl
    | true =>
      have read : KeepsFiles (Channel.reading 0.0 poll) := .reading polled
      have same := read state site
      rw [outcome_reading] at same
      exact same

end KeepsFiles

/-- A source that leaves the files alone. -/
structure QuietSource (source : Source (StateM (Site η))) : Prop where
  aggregate : ∀ site, (source.aggregate.run.run site).2.files = site.files
  perProcessor : ∀ site, (source.perProcessor.run.run site).2.files = site.files
  direct : ∀ poll ∈ source.direct, ∀ site, (poll.run.run site).2.files = site.files
  averages : ∀ count site, ((source.averages count).run.run site).2.files = site.files

variable {source : Source (StateM (Site η))}

theorem keepsFiles_ask {x : ExceptT Fault (StateM (Site η)) α} (quiet : ∀ site, (x.run.run site).2.files = site.files) :
    KeepsFiles (ask x) := fun _ site => quiet site

theorem keepsFiles_directReading (quiet : QuietSource source) : KeepsFiles (ask source.directReading) := by
  refine keepsFiles_ask fun site => ?_
  unfold Source.directReading
  cases known : source.direct with
  | none => rfl
  | some poll => exact quiet.direct poll known site

theorem keepsFiles_loadAverages (quiet : QuietSource source) (count : Value) : KeepsFiles (loadAverages source count) :=
  .bind (.ofExcept _) fun _ => .ite (keepsFiles_ask (quiet.averages count)) (.throw _)

variable [Clock (StateM η)]

theorem keepsFiles_now : KeepsFiles (now : SamplingM (StateM (Site η)) Value) := fun _ _ => rfl

theorem keepsFiles_wallSeconds : KeepsFiles (Clock.wallSeconds : SamplingM (StateM (Site η)) Value) := fun _ _ => rfl

theorem keepsFiles_systemTickLoad (quiet : QuietSource source) : KeepsFiles (systemTickLoad source) := by
  refine .bind keepsFiles_now fun now => .bind .get fun s => .bind (.refresh ?_) fun pair => .ofExcept _
  exact .bind (keepsFiles_ask quiet.aggregate) fun v => .ofExcept _

theorem keepsFiles_processorLoads (quiet : QuietSource source) : KeepsFiles (processorLoads source) := by
  refine .bind keepsFiles_now fun now => .bind .get fun s => .bind (.refresh ?_) fun pair => .ofExcept _
  refine .bind (keepsFiles_ask quiet.perProcessor) fun matrix => .bind (.ofExcept _) fun found => .bind .get fun s => ?_
  exact .ite (.bind (.note _) fun _ => .ofExcept _) (.ofExcept _)

theorem keepsFiles_systemLoad (quiet : QuietSource source) : KeepsFiles (systemLoad source) := by
  refine .bind .get fun s => ?_
  cases s.meter with
  | none => exact keepsFiles_systemTickLoad quiet
  | some meter =>
    exact .bind keepsFiles_now fun now => .bind .get fun s => .measure (keepsFiles_directReading quiet)

theorem keepsFiles_collect (quiet : QuietSource source) (perProcessor : Bool) :
    KeepsFiles (Collector.collect source perProcessor) := by
  refine .bind keepsFiles_wallSeconds fun time => .bind (keepsFiles_systemLoad quiet) fun total =>
    .bind (keepsFiles_systemTickLoad quiet) fun ticks => ?_
  refine .ite (.bind (keepsFiles_processorLoads quiet) fun each => ?_) (.bind (.pure _) fun each => ?_)
  all_goals
    refine .bind (keepsFiles_loadAverages quiet _) fun averages => ?_
    cases averages with
    | nil => exact .throw _
    | cons average rest => exact .bind (.ofExcept _) fun last => .pure _

end

/-! ### The journal over a site -/

theorem goesOn_toInt (v : Value) : GoesOn v.toInt := by
  cases v with
  | float x =>
    unfold Value.toInt
    dsimp only
    cases Binary64.parts x with
    | nan | infinite => exact goesOn_error rfl
    | finite => exact goesOn_ok _
  | text s =>
    unfold Value.toInt
    dsimp only
    cases Numeral.int? s with
    | none => exact goesOn_error rfl
    | some n => exact goesOn_ok n
  | bytes bs =>
    unfold Value.toInt
    dsimp only
    cases (Value.ascii? bs).bind Numeral.int? with
    | none => exact goesOn_error rfl
    | some n => exact goesOn_ok n
  | bool | int => exact goesOn_ok _
  | null | list | table | time | pair | set | again => exact goesOn_error rfl

theorem goesOn_secondOf (v : Value) : GoesOn (secondOf v) := by
  have ranged (second : Int) : GoesOn (if second < -2 ^ (63 : Nat) || 2 ^ (63 : Nat) ≤ second then throw .tooLarge
      else return second : Except Fault Int) := by
    split
    · exact goesOn_error rfl
    · exact goesOn_ok _
  cases v with
  | float x => exact goesOn_bind (goesOn_toInt _) fun whole => ranged _
  | bool | int => exact goesOn_bind (goesOn_toInt _) ranged
  | null | text | bytes | list | table | time | pair | set | again => exact goesOn_bind (goesOn_error rfl) ranged

/-- A clock that shows no date is a failure, and no interrupt. -/
theorem goesOn_dateOf (v : Value) : GoesOn (dateOf v) := by
  refine goesOn_bind (goesOn_secondOf v) fun second => ?_
  dsimp only
  split
  · exact goesOn_error rfl
  · split
    · exact goesOn_error rfl
    · exact goesOn_ok _

theorem goesOn_encodeInt (n : Int) : GoesOn (encodeInt n) := by
  unfold encodeInt
  split
  · exact goesOn_ok _
  · exact goesOn_error rfl

theorem goesOn_keyText (k : Value) : GoesOn (keyText k) := by
  cases k with
  | int n => exact goesOn_encodeInt n
  | text | null | bool | float => exact goesOn_ok _
  | list | table | bytes | time | pair | set | again => exact goesOn_error rfl

mutual

theorem goesOn_encode : ∀ v : Value, GoesOn (encode v)
  | .int n => by
    rw [encode]
    exact goesOn_bind (goesOn_encodeInt n) fun _ => goesOn_ok _
  | .list items => by
    rw [encode]
    exact goesOn_bind (goesOn_encodeItems items) fun _ => goesOn_ok _
  | .table rows => by
    rw [encode]
    exact goesOn_bind (goesOn_encodeRows rows) fun _ => goesOn_ok _
  | .pair v w => by
    rw [encode]
    exact goesOn_bind (goesOn_encode v) fun _ => goesOn_bind (goesOn_encode w) fun _ => goesOn_ok _
  | .null | .bool _ | .float _ | .text _ => by
    rw [encode]
    exact goesOn_ok _
  | .bytes _ | .time _ | .set _ | .again _ => by
    rw [encode]
    exact goesOn_error rfl

theorem goesOn_encodeItems : ∀ vs : List Value, GoesOn (encodeItems vs)
  | [] => goesOn_ok _
  | [v] => goesOn_encode v
  | v :: w :: vs => by
    rw [encodeItems]
    · exact goesOn_bind (goesOn_encode v) fun _ => goesOn_bind (goesOn_encodeItems (w :: vs)) fun _ => goesOn_ok _
    · nofun

theorem goesOn_encodeRows : ∀ rows : List (Value × Value), GoesOn (encodeRows rows)
  | [] => goesOn_ok _
  | [(k, v)] => goesOn_bind (goesOn_keyText k) fun _ => goesOn_bind (goesOn_encode v) fun _ => goesOn_ok _
  | (k, v) :: row :: rows => by
    rw [encodeRows]
    · exact goesOn_bind (goesOn_keyText k) fun _ => goesOn_bind (goesOn_encode v) fun _ =>
        goesOn_bind (goesOn_encodeRows (row :: rows)) fun _ => goesOn_ok _
    · nofun

end

theorem goesOn_lineOf (s : Sample) : GoesOn (lineOf s) := by
  unfold lineOf
  split
  · exact goesOn_error rfl
  · exact goesOn_bind (goesOn_encode (recordOf s)) fun _ => goesOn_ok _

/-- A sample without a line is a failure, and no interrupt. -/
theorem goesOn_check (batch : List Sample) : GoesOn (check batch) := by
  induction batch with
  | nil => exact goesOn_ok ()
  | cons s batch ih => exact goesOn_bind (goesOn_lineOf s) fun _ => ih

theorem goesOn_answer (act : Act) : GoesOn act.answer := by
  cases act with
  | shutdown => exact goesOn_ok ()
  | append wall batch =>
    unfold Act.answer
    dsimp only
    split
    · exact goesOn_ok ()
    · exact goesOn_bind (goesOn_dateOf wall) fun _ => goesOn_check batch

/-- What the wall clock shows. -/
def wallAt {η : Type} [Clock (StateM η)] (site : Site η) : Value :=
  ((Clock.wallSeconds : StateM (Site η) Value).run site).1

end CpuLoad.JournalSite
