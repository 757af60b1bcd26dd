import CpuLoad.Proofs.Outcome
import CpuLoad.Rounds

/-!
What a run of rounds does, from its first call to its last. The collectors, the sinks and the way to stop do anything at
all, each by what happened before it is called, and every call is written down. A round asks every collector and hands
what those gave that did not fail to every sink (`gather_cases`, `dispatch_cases`); a wait stands between
two rounds. So the events of a run are those of some rounds one after the other, up to the end that it comes to
(`Course`, `continueFrom_course`).
-/
namespace CpuLoad.RoundTrace
open CpuLoad.Channel CpuLoad.Outcome CpuLoad.Rounds

/-! ### Operations of a round -/

/-- What is kept of an answer when its failure is replaced by a value. An interrupt is no failure. -/
def kept {α : Type} (default : α) : Except Fault α → Except Fault α
  | .ok a => .ok a
  | .error e => if e.isFailure then .ok default else .error e

/-- Whether an answer lets the round go on: it is one, or a failure. -/
def GoesOn {α : Type} (answer : Except Fault α) : Prop := ∀ e, answer = .error e → e.isFailure

theorem goesOn_ok {α : Type} (a : α) : GoesOn (.ok a : Except Fault α) := nofun

theorem goesOn_error {α : Type} {e : Fault} (failure : e.isFailure) : GoesOn (.error e : Except Fault α) := by
  rintro _ ⟨⟩
  exact failure

theorem goesOn_bind {α β : Type} {r : Except Fault α} {f : α → Except Fault β} (first : GoesOn r)
    (next : ∀ a, GoesOn (f a)) : GoesOn (r >>= f) := by
  cases r with
  | error e => exact goesOn_error (first e rfl)
  | ok a => exact next a

theorem kept_of_goesOn {α : Type} {default : α} {answer : Except Fault α} (goes : GoesOn answer) :
    kept default answer = .ok (answer.toOption.getD default) := by
  cases answer with
  | ok a => rfl
  | error e => simp [kept, goes e rfl, Except.toOption]

theorem kept_of_interrupt {α : Type} (default : α) {answer : Except Fault α} (stops : ¬ GoesOn answer) :
    ∃ e, answer = .error e ∧ ¬ e.isFailure ∧ kept default answer = .error e := by
  cases answer with
  | ok a => exact absurd (by rintro e ⟨⟩) stops
  | error e =>
    have interrupt : ¬ e.isFailure := fun failure => stops (by rintro _ ⟨⟩; exact failure)
    exact ⟨e, rfl, interrupt, by simp [kept, interrupt]⟩

theorem outcome_guarded {ω ρ α : Type} {state : ρ} {world : ω} (notice : Notice) (default : α)
    (x : ChannelM (StateM ω) ρ α) :
    outcome (guarded notice default x) state world = (kept default (outcome x state world).1, (outcome x state world).2) := by
  unfold guarded
  simp only [outcome_bind, outcome_attempt, andThen_ok]
  rcases outcome x state world with ⟨e | a, s, w⟩
  · by_cases failure : e.isFailure <;> simp [kept, failure, Except.map]
  · simp [kept]

/-- The notices of a run change nothing. -/
theorem outcome_run {ω ρ : Type} {collectors : List (Collecting (StateT ρ (StateM ω)))}
    {sinks : List (Sink (StateT ρ (StateM ω)))} {stop : Stop (StateT ρ (StateM ω))} {interval cap : Value} {fuel : Nat}
    {state : ρ} {world : ω} : outcome (run collectors sinks stop interval cap fuel) state world =
      outcome (continueFrom collectors sinks stop interval cap 0 fuel) state world := by
  unfold run
  simp only [outcome_bind, outcome_note, andThen_ok]
  generalize outcome (continueFrom collectors sinks stop interval cap 0 fuel) state world = left
  rcases left with ⟨e | ending, s, w⟩
  · rfl
  · cases ending <;> rfl

/-- Sinks that fail at most are all handed the batch, and what each of them leaves of the state and the world they leave
    together. -/
theorem exists_dispatch_of_goesOn {ω ρ κ : Type} {sinks : List (Sink (StateT ρ (StateM ω)))} {batch : List Sample}
    (part : ρ → ω → κ) (goes : ∀ sink ∈ sinks, ∀ state world, GoesOn (outcome (sink batch) state world).1)
    (leaves : ∀ sink ∈ sinks, ∀ state world,
      part (outcome (sink batch) state world).2.1 (outcome (sink batch) state world).2.2 = part state world)
    (state : ρ) (world : ω) :
    ∃ left later, outcome (dispatch batch sinks) state world = (.ok (), left, later) ∧ part left later = part state world := by
  induction sinks generalizing state world with
  | nil => exact ⟨state, world, rfl, rfl⟩
  | cons sink rest ih =>
    have first : outcome (guarded .sinkFailed () (sink batch)) state world = _ := outcome_guarded _ () (sink batch)
    rw [kept_of_goesOn (goes sink (List.mem_cons_self ..) state world)] at first
    obtain ⟨left, later, others, same⟩ := ih (fun sink' member => goes sink' (List.mem_cons_of_mem _ member))
      (fun sink' member => leaves sink' (List.mem_cons_of_mem _ member))
      (outcome (sink batch) state world).2.1 (outcome (sink batch) state world).2.2
    refine ⟨left, later, ?_, same.trans (leaves sink (List.mem_cons_self ..) state world)⟩
    rw [dispatch, outcome_bind, first, andThen_ok, others]

/-- A cap of a number of rounds, or none. -/
def capOf : Option Int → Value
  | none => .null
  | some n => .int n

/-- Whether a number of rounds is the cap or beyond it. -/
def Reached (cap : Option Int) (rounds : Nat) : Prop := ∃ n ∈ cap, n ≤ rounds

instance (cap : Option Int) (rounds : Nat) : Decidable (Reached cap rounds) := by
  unfold Reached
  infer_instance

theorem reached_capOf (cap : Option Int) (rounds : Nat) : reached (capOf cap) rounds = .ok (decide (Reached cap rounds)) := by
  cases cap with
  | none => simp [capOf, reached, Reached]
  | some n =>
    have order : decide (((rounds : Int) : Rat) < (n : Rat)) = !decide (n ≤ rounds) := by
      rw [← decide_not]
      exact decide_eq_decide.mpr (Rat.intCast_lt_intCast.trans Int.not_le.symm)
    have place : (Number.int n).atMost (.int rounds) = !decide (((rounds : Int) : Rat) < (n : Rat)) := rfl
    have at_cap : reached (.int n) rounds = .ok ((Number.int n).atMost (.int rounds)) := rfl
    rw [capOf, at_cap, place, order, Bool.not_not]
    simp [Reached]

/-! ### Calls that are written down -/

inductive Event (C K : Type)
  | asked (collector : C) (answer : Except Fault (List Sample))
  | handed (sink : K) (batch : List Sample) (answer : Except Fault Unit)
  | waited (interval : Value) (answer : Except Fault Unit)

abbrev Past (C K : Type) := List (Event C K)

/-- What collectors, sinks and the way to stop do, by the events before. -/
structure Cast (C K : Type) where
  name : C → String
  collect : C → Past C K → Except Fault (List Sample)
  take : K → List Sample → Past C K → Except Fault Unit
  isSet : Past C K → Bool
  wait : Value → Past C K → Except Fault Unit

variable {C K : Type}

/-- The surroundings of a run, in which the events are its state. -/
abbrev Scenery (C K : Type) := StateT (Past C K) (StateM Unit)

/-- A call that answers by the events before it, and is an event itself. -/
def recorded {α : Type} (answer : Past C K → Except Fault α) (event : Except Fault α → Event C K) :
    ChannelM (StateM Unit) (Past C K) α :=
  ExceptT.mk (modifyGet fun past => (answer past, past ++ [event (answer past)]))

namespace Cast
variable (cast : Cast C K)

def collector (c : C) : Collecting (Scenery C K) := ⟨cast.name c, recorded (cast.collect c) (.asked c)⟩

def sink (k : K) : Sink (Scenery C K) := fun batch => recorded (cast.take k batch) (.handed k batch)

def stop : Stop (Scenery C K) where
  isSet := do return cast.isSet (← get)
  wait interval := recorded (cast.wait interval) (.waited interval)

end Cast

@[simp] theorem outcome_recorded {α : Type} (answer : Past C K → Except Fault α) (event : Except Fault α → Event C K)
    (past : Past C K) : outcome (recorded answer event) past () = (answer past, past ++ [event (answer past)], ()) := rfl

@[simp] theorem outcome_isSet (cast : Cast C K) (past : Past C K) :
    outcome (ExceptT.lift cast.stop.isSet) past () = (.ok (cast.isSet past), past, ()) := rfl

/-! ### One round -/

/-- The samples of the collectors that did not fail, in order. -/
def batchOf (answers : List (Except Fault (List Sample))) : List Sample := (answers.filterMap Except.toOption).flatten

def asking (collectors : List C) (answers : List (Except Fault (List Sample))) : Past C K :=
  collectors.zipWith Event.asked answers

def handing (sinks : List K) (batch : List Sample) (receipts : List (Except Fault Unit)) : Past C K :=
  sinks.zipWith (Event.handed · batch) receipts

/-- What came of the collectors and of the sinks of a round. -/
structure Round where
  answers : List (Except Fault (List Sample))
  receipts : List (Except Fault Unit)

/-- A round in which every collector is asked and every sink is handed something. -/
structure Round.Full (collectors : List C) (sinks : List K) (r : Round) : Prop where
  asked : r.answers.length = collectors.length
  handed : r.receipts.length = sinks.length
  answers : ∀ answer ∈ r.answers, GoesOn answer
  receipts : ∀ receipt ∈ r.receipts, GoesOn receipt

def Round.events (collectors : List C) (sinks : List K) (r : Round) : Past C K :=
  asking collectors r.answers ++ handing sinks (batchOf r.answers) r.receipts

variable {cast : Cast C K} {collectors : List C} {sinks : List K} {interval : Value}
  {cap : Option Int}

private theorem batchOf_cons (answer : Except Fault (List Sample)) (answers : List (Except Fault (List Sample))) :
    batchOf (answer :: answers) = answer.toOption.getD [] ++ batchOf answers := by
  cases answer with
  | ok samples => simp [batchOf, Except.toOption]
  | error e => simp [batchOf, Except.toOption, List.filterMap_cons_none (f := Except.toOption) (a := .error e) rfl]

/-- Every collector is asked, or else all up to the first one that is interrupted. -/
theorem gather_cases (cast : Cast C K) (collectors : List C) (past : Past C K) :
    (∃ answers, answers.length = collectors.length ∧ (∀ answer ∈ answers, GoesOn answer) ∧
      outcome (gather (collectors.map cast.collector)) past () =
        (.ok (batchOf answers), past ++ asking collectors answers, ())) ∨
    (∃ answers e, answers.length < collectors.length ∧ (∀ answer ∈ answers, GoesOn answer) ∧ ¬ e.isFailure ∧
      outcome (gather (collectors.map cast.collector)) past () =
        (.error e, past ++ asking collectors (answers ++ [.error e]), ())) := by
  induction collectors generalizing past with
  | nil => exact .inl ⟨[], rfl, by simp, by simp [gather, asking, batchOf]⟩
  | cons c rest ih =>
    have first : outcome (guarded (.collectorFailed (cast.collector c).name) [] (cast.collector c).collect) past () =
        (kept [] (cast.collect c past), past ++ [.asked c (cast.collect c past)], ()) :=
      outcome_guarded _ [] (recorded (cast.collect c) (.asked c))
    simp only [List.map_cons, gather, outcome_bind, first]
    by_cases goes : GoesOn (cast.collect c past)
    · rw [kept_of_goesOn goes, andThen_ok, outcome_bind]
      rcases ih (past ++ [.asked c (cast.collect c past)]) with
        ⟨answers, length, all, later⟩ | ⟨answers, e, length, all, stops, later⟩
      · refine .inl ⟨cast.collect c past :: answers, by simp [length], by simpa [goes] using all, ?_⟩
        rw [later]
        simp [asking, batchOf_cons]
      · refine .inr ⟨cast.collect c past :: answers, e, by simpa using length, by simpa [goes] using all, stops, ?_⟩
        rw [later]
        simp [asking]
    · obtain ⟨e, own, stops, ends⟩ := kept_of_interrupt [] goes
      refine .inr ⟨[], e, by simp, by simp, stops, ?_⟩
      rw [ends, own]
      simp [asking]

/-- Every sink is handed the batch, or else all up to the first one that is interrupted. -/
theorem dispatch_cases (cast : Cast C K) (sinks : List K) (batch : List Sample) (past : Past C K) :
    (∃ receipts, receipts.length = sinks.length ∧ (∀ receipt ∈ receipts, GoesOn receipt) ∧
      outcome (dispatch batch (sinks.map cast.sink)) past () = (.ok (), past ++ handing sinks batch receipts, ())) ∨
    (∃ receipts e, receipts.length < sinks.length ∧ (∀ receipt ∈ receipts, GoesOn receipt) ∧ ¬ e.isFailure ∧
      outcome (dispatch batch (sinks.map cast.sink)) past () =
        (.error e, past ++ handing sinks batch (receipts ++ [.error e]), ())) := by
  induction sinks generalizing past with
  | nil => exact .inl ⟨[], rfl, by simp, by simp [dispatch, handing]⟩
  | cons k rest ih =>
    have first : outcome (guarded .sinkFailed () (cast.sink k batch)) past () =
        (kept () (cast.take k batch past), past ++ [.handed k batch (cast.take k batch past)], ()) :=
      outcome_guarded _ () (recorded (cast.take k batch) (.handed k batch))
    simp only [List.map_cons, dispatch, outcome_bind, first]
    by_cases goes : GoesOn (cast.take k batch past)
    · rw [kept_of_goesOn goes, andThen_ok]
      rcases ih (past ++ [.handed k batch (cast.take k batch past)]) with
        ⟨receipts, length, all, later⟩ | ⟨receipts, e, length, all, stops, later⟩
      · refine .inl ⟨cast.take k batch past :: receipts, by simp [length], by simpa [goes] using all, ?_⟩
        rw [later]
        simp [handing]
      · refine .inr ⟨cast.take k batch past :: receipts, e, by simpa using length, by simpa [goes] using all, stops, ?_⟩
        rw [later]
        simp [handing]
    · obtain ⟨e, own, stops, ends⟩ := kept_of_interrupt () goes
      refine .inr ⟨[], e, by simp, by simp, stops, ?_⟩
      rw [ends, own]
      simp [handing]

/-! ### Runs -/

/-- Some rounds with a wait after each. -/
def turns (collectors : List C) (sinks : List K) (interval : Value) (rounds : List Round) : Past C K :=
  rounds.flatMap fun r => r.events collectors sinks ++ [.waited interval (.ok ())]

/-- Some rounds after which a run goes on: it was not told to stop before any of them, and none reached the cap. -/
structure Lasts (cast : Cast C K) (collectors : List C) (sinks : List K) (interval : Value) (cap : Option Int)
    (rounds : List Round) : Prop where
  full : ∀ r ∈ rounds, r.Full collectors sinks
  untold : ∀ k < rounds.length, cast.isSet (turns collectors sinks interval (rounds.take k)) = false
  uncapped : ∀ k < rounds.length, ¬ Reached cap (k + 1)

/-- The courses that a run can take: its events, and what it ends with. -/
inductive Course (cast : Cast C K) (collectors : List C) (sinks : List K) (interval : Value) (cap : Option Int)
    (fuel : Nat) : Past C K → Except Fault Ending → Prop
  /-- It is told to stop: a wait stands after every round. -/
  | told {rounds : List Round} (lasts : Lasts cast collectors sinks interval cap rounds)
      (set : cast.isSet (turns collectors sinks interval rounds) = true) :
      Course cast collectors sinks interval cap fuel (turns collectors sinks interval rounds) (.ok (.stopped rounds.length))
  /-- It reaches the cap: no wait stands after the last round. -/
  | capped {rounds : List Round} {last : Round} (lasts : Lasts cast collectors sinks interval cap rounds)
      (full : last.Full collectors sinks) (unset : cast.isSet (turns collectors sinks interval rounds) = false)
      (cap_reached : Reached cap (rounds.length + 1)) :
      Course cast collectors sinks interval cap fuel (turns collectors sinks interval rounds ++ last.events collectors sinks)
        (.ok (.stopped (rounds.length + 1)))
  /-- A collector is interrupted: no later one is asked, and no sink is handed anything. -/
  | stoppedAsking {rounds : List Round} {answers : List (Except Fault (List Sample))} {e : Fault}
      (lasts : Lasts cast collectors sinks interval cap rounds)
      (unset : cast.isSet (turns collectors sinks interval rounds) = false)
      (fewer : answers.length < collectors.length) (goOn : ∀ answer ∈ answers, GoesOn answer) (interrupt : ¬ e.isFailure) :
      Course cast collectors sinks interval cap fuel
        (turns collectors sinks interval rounds ++ asking collectors (answers ++ [.error e])) (.error e)
  /-- A sink is interrupted: no later one is handed the batch. -/
  | stoppedHanding {rounds : List Round} {answers : List (Except Fault (List Sample))} {receipts : List (Except Fault Unit)}
      {e : Fault} (lasts : Lasts cast collectors sinks interval cap rounds)
      (unset : cast.isSet (turns collectors sinks interval rounds) = false) (all : answers.length = collectors.length)
      (fewer : receipts.length < sinks.length) (goOn : ∀ answer ∈ answers, GoesOn answer)
      (goOn' : ∀ receipt ∈ receipts, GoesOn receipt) (interrupt : ¬ e.isFailure) :
      Course cast collectors sinks interval cap fuel
        (turns collectors sinks interval rounds ++ asking collectors answers ++
          handing sinks (batchOf answers) (receipts ++ [.error e])) (.error e)
  /-- The wait does not return. -/
  | stoppedWaiting {rounds : List Round} {last : Round} {e : Fault} (lasts : Lasts cast collectors sinks interval cap rounds)
      (full : last.Full collectors sinks) (unset : cast.isSet (turns collectors sinks interval rounds) = false)
      (uncapped : ¬ Reached cap (rounds.length + 1)) :
      Course cast collectors sinks interval cap fuel
        (turns collectors sinks interval rounds ++ last.events collectors sinks ++ [.waited interval (.error e)]) (.error e)
  /-- It goes on beyond the number of rounds that are looked at. -/
  | unfinished {rounds : List Round} (lasts : Lasts cast collectors sinks interval cap rounds)
      (beyond : rounds.length = fuel) :
      Course cast collectors sinks interval cap fuel (turns collectors sinks interval rounds)
        (.ok (.unfinished rounds.length))

theorem turns_append (rounds : List Round) (last : Round) :
    turns collectors sinks interval (rounds ++ [last]) =
      turns collectors sinks interval rounds ++ last.events collectors sinks ++ [.waited interval (.ok ())] := by
  simp [turns]

theorem Lasts.append {rounds : List Round} {last : Round} (lasts : Lasts cast collectors sinks interval cap rounds)
    (full : last.Full collectors sinks) (unset : cast.isSet (turns collectors sinks interval rounds) = false)
    (uncapped : ¬ Reached cap (rounds.length + 1)) : Lasts cast collectors sinks interval cap (rounds ++ [last]) := by
  refine ⟨?_, ?_, ?_⟩
  · intro r member
    rcases List.mem_append.mp member with before | new
    · exact lasts.full r before
    · rw [List.mem_singleton.mp new]
      exact full
  · intro k bound
    rw [List.take_append_of_le_length (by simpa [Nat.lt_succ_iff] using bound)]
    rcases Nat.lt_or_ge k rounds.length with before | new
    · exact lasts.untold k before
    · rw [List.take_of_length_le new]
      exact unset
  · intro k bound
    rcases Nat.lt_or_ge k rounds.length with before | new
    · exact lasts.uncapped k before
    · obtain rfl : k = rounds.length := by
        simp only [List.length_append, List.length_singleton] at bound
        omega
      exact uncapped

/-- What a run does after some rounds that it outlasts. -/
theorem continueFrom_course {rounds : List Round} (lasts : Lasts cast collectors sinks interval cap rounds) (fuel : Nat) :
    let left := outcome (continueFrom (collectors.map cast.collector) (sinks.map cast.sink) cast.stop interval (capOf cap)
      rounds.length fuel) (turns collectors sinks interval rounds) ()
    Course cast collectors sinks interval cap (rounds.length + fuel) left.2.1 left.1 := by
  induction fuel generalizing rounds with
  | zero => exact .unfinished lasts rfl
  | succ fuel ih =>
    dsimp only
    unfold continueFrom
    simp only [outcome_bind, outcome_isSet, andThen_ok]
    cases set : cast.isSet (turns collectors sinks interval rounds) with
    | true => exact .told lasts set
    | false =>
      simp only [Bool.false_eq_true, ↓reduceIte, outcome_bind]
      rcases gather_cases cast collectors (turns collectors sinks interval rounds) with
        ⟨answers, asked, goOn, gathered⟩ | ⟨answers, e, fewer, goOn, interrupt, gathered⟩
      · rw [gathered, andThen_ok, outcome_bind]
        rcases dispatch_cases cast sinks (batchOf answers)
            (turns collectors sinks interval rounds ++ asking collectors answers) with
          ⟨receipts, handed, goOn', dispatched⟩ | ⟨receipts, e, fewer, goOn', interrupt, dispatched⟩
        · have full : (Round.mk answers receipts).Full collectors sinks := ⟨asked, handed, goOn, goOn'⟩
          have events : turns collectors sinks interval rounds ++ asking collectors answers ++
              handing sinks (batchOf answers) receipts =
              turns collectors sinks interval rounds ++ (Round.mk answers receipts).events collectors sinks := by
            simp [Round.events]
          rw [dispatched, andThen_ok, events, reached_capOf, outcome_bind, outcome_ofExcept, andThen_ok]
          by_cases cap_reached : Reached cap (rounds.length + 1)
          · simp only [cap_reached, decide_true, ↓reduceIte, outcome_pure]
            exact .capped lasts full set cap_reached
          · simp only [cap_reached, decide_false, Bool.false_eq_true, ↓reduceIte, outcome_bind]
            have waits : outcome (cast.stop.wait interval) (turns collectors sinks interval rounds ++
                (Round.mk answers receipts).events collectors sinks) () = _ :=
              outcome_recorded (cast.wait interval) (.waited interval) _
            rw [waits]
            cases ended : cast.wait interval
                (turns collectors sinks interval rounds ++ (Round.mk answers receipts).events collectors sinks) with
            | error e => exact .stoppedWaiting lasts full set cap_reached
            | ok done =>
              have later := ih (lasts.append full set cap_reached)
              rw [turns_append, List.length_append, List.length_singleton, Nat.add_assoc, Nat.add_comm 1 fuel] at later
              exact later
        · rw [dispatched]
          exact .stoppedHanding lasts set asked fewer goOn goOn' interrupt
      · rw [gathered]
        exact .stoppedAsking lasts set fewer goOn interrupt

/-- Whatever collectors, sinks and the way to stop do, a run takes one of the courses: each of its rounds asks every
    collector in order and hands the samples of those that did not fail to every sink in order; one wait for the interval
    stands between two rounds, and one more at the end exactly if the run was told to stop after a round; what is returned
    is the number of the rounds; and an interrupt ends the run where it comes. -/
theorem run_takes_its_course (cast : Cast C K) (collectors : List C) (sinks : List K) (interval : Value)
    (cap : Option Int) (fuel : Nat) :
    let left := outcome (run (collectors.map cast.collector) (sinks.map cast.sink) cast.stop interval (capOf cap) fuel)
      [] ()
    Course cast collectors sinks interval cap fuel left.2.1 left.1 := by
  have begun : Lasts cast collectors sinks interval cap [] := ⟨by simp, by simp, by simp⟩
  have course := continueFrom_course begun fuel
  rw [List.length_nil, Nat.zero_add] at course
  dsimp only
  rw [outcome_run]
  exact course

/-- A collector that fails in the first round and a sink that always fails. The run is told to stop in its second
    wait. -/
def flaky : Cast Nat Nat where
  name _ := "load"
  collect c past := if c = 0 ∧ past = [] then .error (.reported .runtime "no reading") else .ok [default]
  take k _ _ := if k = 0 then .error (.reported .system "disk full") else .ok ()
  isSet past := decide (10 ≤ past.length)
  wait _ _ := .ok ()

theorem run_takes_its_course_flaky : Course flaky [0, 1] [0, 1] (.float 2.5) (some 3) 9
    [.asked 0 (.error (.reported .runtime "no reading")), .asked 1 (.ok [default]),
      .handed 0 [default] (.error (.reported .system "disk full")), .handed 1 [default] (.ok ()),
      .waited (.float 2.5) (.ok ()), .asked 0 (.ok [default]), .asked 1 (.ok [default]),
      .handed 0 [default, default] (.error (.reported .system "disk full")), .handed 1 [default, default] (.ok ()),
      .waited (.float 2.5) (.ok ())]
    (.ok (.stopped 2)) :=
  run_takes_its_course flaky [0, 1] [0, 1] (.float 2.5) (some 3) 9

end CpuLoad.RoundTrace
