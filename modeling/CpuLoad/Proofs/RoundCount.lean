import CpuLoad.Proofs.RoundTrace
import Mathlib

/-!
How many rounds a run has. Where no interrupt comes, a round is either not begun, because the run has been told to stop,
or completed (`told_or_completed`). So a run without a cap has a number of rounds of its own, which may be infinite
(`exists_completes`). A cap is looked at after a round only. Hence a run with a cap has as many rounds as the cap says or
as it would have without one, whichever is less, except that a cap below one counts as one (`capped_of_completes`).
-/
namespace CpuLoad.RoundCount
open CpuLoad.Channel CpuLoad.Outcome CpuLoad.RoundTrace CpuLoad.Rounds
variable {ω ρ : Type}

/-- What a run consists of if no interrupt comes. Collectors and sinks may fail, and all of it may change the state and the
    world at will. -/
structure Crew (ω ρ : Type) where
  collectors : List (Collecting (StateT ρ (StateM ω)))
  sinks : List (Sink (StateT ρ (StateM ω)))
  stop : Stop (StateT ρ (StateM ω))
  interval : Value
  collects : ∀ c ∈ collectors, ∀ state world, GoesOn (outcome c.collect state world).1
  takes : ∀ sink ∈ sinks, ∀ batch state world, GoesOn (outcome (sink batch) state world).1
  waits : ∀ state world, (outcome (stop.wait interval) state world).1 = .ok ()

/-! ### One round -/

theorem exists_gather_eq {collectors : List (Collecting (StateT ρ (StateM ω)))}
    (collects : ∀ c ∈ collectors, ∀ state world, GoesOn (outcome c.collect state world).1) (state : ρ) (world : ω) :
    ∃ batch left later, outcome (gather collectors) state world = (.ok batch, left, later) := by
  induction collectors generalizing state world with
  | nil => exact ⟨[], state, world, rfl⟩
  | cons c rest ih =>
    have first : outcome (guarded (.collectorFailed c.name) [] c.collect) state world = _ := outcome_guarded _ [] c.collect
    rw [kept_of_goesOn (collects c (List.mem_cons_self ..) state world)] at first
    obtain ⟨batch, left, later, others⟩ := ih (fun c' member => collects c' (List.mem_cons_of_mem _ member))
      (outcome c.collect state world).2.1 (outcome c.collect state world).2.2
    unfold gather
    rw [outcome_bind, first, andThen_ok, outcome_bind, others]
    exact ⟨_, left, later, rfl⟩

namespace Crew
variable (crew : Crew ω ρ)

/-- How a run ends that is looked at for so many rounds. -/
def ending (cap : Option Int) (fuel : Nat) (state : ρ) (world : ω) : Except Fault Ending :=
  (outcome (run crew.collectors crew.sinks crew.stop crew.interval (capOf cap) fuel) state world).1

/-- How a run ends after the first rounds. -/
def endingFrom (cap : Option Int) (done fuel : Nat) (state : ρ) (world : ω) : Except Fault Ending :=
  (outcome (continueFrom crew.collectors crew.sinks crew.stop crew.interval (capOf cap) done fuel) state world).1

theorem ending_eq (cap : Option Int) (fuel : Nat) (state : ρ) (world : ω) :
    crew.ending cap fuel state world = crew.endingFrom cap 0 fuel state world :=
  congrArg Prod.fst outcome_run

/-- Whether the run is told to stop before its next round. -/
def isTold (state : ρ) (world : ω) : Prop := (outcome (ExceptT.lift crew.stop.isSet) state world).1 = .ok true

/-- A run that is told to stop ends there, and any other one completes a round and, unless it reaches the cap, goes on
    from a state in which the cap has no part. -/
theorem told_or_completed (state : ρ) (world : ω) :
    (crew.isTold state world ∧
      ∀ cap done fuel, crew.endingFrom cap done (fuel + 1) state world = .ok (.stopped done)) ∨
    (¬ crew.isTold state world ∧ ∃ next later, ∀ cap done fuel, crew.endingFrom cap done (fuel + 1) state world =
      if Reached cap (done + 1) then .ok (.stopped (done + 1)) else crew.endingFrom cap (done + 1) fuel next later) := by
  obtain ⟨told, asked, there, looked⟩ : ∃ told asked there,
      outcome (ExceptT.lift crew.stop.isSet) state world = (.ok told, asked, there) := ⟨_, _, _, rfl⟩
  unfold isTold
  rw [looked]
  cases told with
  | true =>
    refine .inl ⟨rfl, fun cap done fuel => ?_⟩
    unfold endingFrom continueFrom
    rw [outcome_bind, looked]
    rfl
  | false =>
    obtain ⟨batch, gathered, at_gathered, gathers⟩ := exists_gather_eq crew.collects asked there
    obtain ⟨handed, at_handed, dispatches, _⟩ := exists_dispatch_of_goesOn (fun _ _ => ())
      (fun sink member => crew.takes sink member batch) (fun _ _ _ _ => rfl) gathered at_gathered
    obtain ⟨next, later, waits⟩ : ∃ next later, outcome (crew.stop.wait crew.interval) handed at_handed = (.ok (), next, later) :=
      ⟨_, _, Prod.ext (crew.waits handed at_handed) rfl⟩
    refine .inr ⟨by rintro ⟨⟩, next, later, fun cap done fuel => ?_⟩
    unfold endingFrom
    rw [continueFrom, outcome_bind, looked, andThen_ok, if_neg Bool.false_ne_true, outcome_bind, gathers, andThen_ok,
      outcome_bind, dispatches, andThen_ok, outcome_bind, outcome_ofExcept, reached_capOf, andThen_ok]
    by_cases reaches : Reached cap (done + 1)
    · simp [reaches]
    · simp [reaches, waits]

/-! ### All rounds -/

variable {crew} {state : ρ} {world : ω}

/-- A run without a cap either ends after some number of rounds, however long it is looked at, or goes on. -/
theorem ends_or_goesOn (crew : Crew ω ρ) (done fuel : Nat) (state : ρ) (world : ω) :
    (∃ rounds, ∀ more, crew.endingFrom none done more state world =
      .ok (if rounds < more then .stopped (done + rounds) else .unfinished (done + more))) ∨
    crew.endingFrom none done fuel state world = .ok (.unfinished (done + fuel)) := by
  induction fuel generalizing done state world with
  | zero => exact .inr rfl
  | succ fuel ih =>
    rcases crew.told_or_completed state world with ⟨_, ends⟩ | ⟨_, next, later, completes⟩
    · refine .inl ⟨0, fun more => ?_⟩
      cases more with
      | zero => rfl
      | succ more => simpa using ends none done more
    · have follows (more : Nat) : crew.endingFrom none done (more + 1) state world =
          crew.endingFrom none (done + 1) more next later := (completes none done more).trans (if_neg (by simp [Reached]))
      rcases ih (done + 1) next later with ⟨rounds, ends⟩ | goesOn
      · refine .inl ⟨rounds + 1, fun more => ?_⟩
        cases more with
        | zero => rfl
        | succ more => simp [follows, ends, Nat.add_assoc, Nat.add_comm 1]
      · refine .inr ?_
        rw [follows, goesOn, Nat.add_assoc, Nat.add_comm 1]

/-- A run with a cap beside the same run without one. -/
theorem capped_beside_free (crew : Crew ω ρ) (n : Int) (done fuel : Nat) (state : ρ) (world : ω) :
    (∃ rounds, done ≤ rounds ∧ crew.endingFrom none done fuel state world = .ok (.stopped rounds) ∧
      crew.endingFrom (some n) done fuel state world = .ok (.stopped (min (max n.toNat (done + 1)) rounds))) ∨
    (crew.endingFrom none done fuel state world = .ok (.unfinished (done + fuel)) ∧
      (max n.toNat (done + 1) ≤ done + fuel →
        crew.endingFrom (some n) done fuel state world = .ok (.stopped (max n.toNat (done + 1))))) := by
  induction fuel generalizing done state world with
  | zero => exact .inr ⟨rfl, fun enough => by omega⟩
  | succ fuel ih =>
    rcases crew.told_or_completed state world with ⟨_, ends⟩ | ⟨_, next, later, completes⟩
    · refine .inl ⟨done, Nat.le_refl done, ends none done fuel, ?_⟩
      rw [ends, Nat.min_eq_right (by omega)]
    · have free : crew.endingFrom none done (fuel + 1) state world = _ := completes none done fuel
      rw [if_neg (by simp [Reached])] at free
      have capped : crew.endingFrom (some n) done (fuel + 1) state world = _ := completes (some n) done fuel
      by_cases reaches : n ≤ done + 1
      · -- The cap ends this run here, whatever becomes of the other one.
        have first : max n.toNat (done + 1) = done + 1 := by omega
        rw [if_pos (by simpa [Reached] using reaches)] at capped
        rw [free, capped, first]
        rcases ih (done + 1) next later with ⟨rounds, most, ends, _⟩ | ⟨goesOn, _⟩
        · refine .inl ⟨rounds, by omega, ends, ?_⟩
          rw [Nat.min_eq_left most]
        · refine .inr ⟨?_, fun _ => rfl⟩
          rw [goesOn, Nat.add_assoc, Nat.add_comm 1]
      · have same : max n.toNat (done + 1) = max n.toNat (done + 1 + 1) := by omega
        rw [if_neg (by simpa [Reached] using reaches)] at capped
        rw [free, capped, same]
        rcases ih (done + 1) next later with ⟨rounds, most, ends, limited⟩ | ⟨goesOn, limited⟩
        · exact .inl ⟨rounds, by omega, ends, limited⟩
        · refine .inr ⟨?_, fun enough => limited (by omega)⟩
          rw [goesOn, Nat.add_assoc, Nat.add_comm 1]

/-- What a run without a cap comes to if it has so many rounds, which may be infinitely many: it is seen to end once it is
    looked at for longer than that. -/
def Completes (crew : Crew ω ρ) (state : ρ) (world : ω) (rounds : ℕ∞) : Prop :=
  ∀ fuel : Nat, crew.ending none fuel state world =
    .ok (if rounds < fuel then .stopped rounds.toNat else .unfinished fuel)

theorem exists_completes (crew : Crew ω ρ) (state : ρ) (world : ω) : ∃ rounds, Completes crew state world rounds := by
  by_cases ends : ∃ rounds, ∀ more, crew.endingFrom none 0 more state world =
      .ok (if rounds < more then .stopped (0 + rounds) else .unfinished (0 + more))
  · obtain ⟨rounds, ends⟩ := ends
    refine ⟨rounds, fun fuel => ?_⟩
    rw [ending_eq, ends]
    simp
  · refine ⟨⊤, fun fuel => ?_⟩
    rw [ending_eq, (ends_or_goesOn crew 0 fuel state world).resolve_left ends]
    simp

variable {rounds other : ℕ∞}

theorem Completes.le (completes : Completes crew state world rounds) (completes' : Completes crew state world other) :
    other ≤ rounds := by
  by_contra more
  obtain ⟨r, rfl⟩ := ENat.ne_top_iff_exists.mp (ne_top_of_lt (not_le.mp more))
  have beyond : ¬ other < ((r + 1 : Nat) : ℕ∞) := not_lt.mpr (Order.add_one_le_of_lt (not_le.mp more))
  have whole := (completes (r + 1)).symm.trans (completes' (r + 1))
  rw [if_pos (Nat.cast_lt.mpr (Nat.lt_succ_self r)), if_neg beyond] at whole
  cases whole

/-- A run that is told to stop beforehand has no round. -/
theorem isTold_iff (completes : Completes crew state world rounds) : crew.isTold state world ↔ rounds = 0 := by
  have whole := completes 1
  rw [ending_eq, Nat.cast_one] at whole
  simp only [Order.lt_one_iff] at whole
  rcases crew.told_or_completed state world with ⟨told, ends⟩ | ⟨untold, next, later, completes⟩
  · rw [ends] at whole
    by_cases none : rounds = 0
    · exact ⟨fun _ => none, fun _ => told⟩
    · rw [if_neg none] at whole
      cases whole
  · rw [completes, if_neg (by simp [Reached])] at whole
    by_cases none : rounds = 0
    · rw [if_pos none] at whole
      cases whole
    · exact ⟨fun told => absurd told untold, fun zero => absurd zero none⟩

theorem capped_of_completes (completes : Completes crew state world rounds) (n : Int) {fuel : Nat}
    (enough : max n.toNat 1 ≤ fuel) : ∃ total : Nat, crew.ending (some n) fuel state world = .ok (.stopped total) ∧
      (total : ℕ∞) = min ((max n.toNat 1 : ℕ) : ℕ∞) rounds := by
  have whole := completes fuel
  rw [ending_eq] at whole ⊢
  rcases capped_beside_free crew n 0 fuel state world with ⟨total, _, ends, limited⟩ | ⟨goesOn, limited⟩
  · rw [ends] at whole
    by_cases seen : rounds < fuel
    · rw [if_pos seen] at whole
      obtain rfl : total = rounds.toNat := Ending.stopped.inj (Except.ok.inj whole)
      refine ⟨_, limited, ?_⟩
      rw [Nat.zero_add, Nat.mono_cast.map_min, ENat.natCast_toNat (ne_top_of_lt seen)]
    · rw [if_neg seen] at whole
      cases whole
  · simp only [Nat.zero_add] at goesOn limited
    rw [goesOn] at whole
    by_cases seen : rounds < fuel
    · rw [if_pos seen] at whole
      cases whole
    · refine ⟨_, limited enough, ?_⟩
      have most : ((max n.toNat 1 : ℕ) : ℕ∞) ≤ rounds := le_trans (Nat.cast_le.mpr enough) (not_lt.mp seen)
      rw [min_eq_left most]

end Crew
open Crew

/-- Where no interrupt comes, a run without a cap has a number of rounds of its own, none exactly if it is told to stop
beforehand. With a cap the run ends, with as many rounds as the cap says or as it has without one, whichever is less,
where a cap below one counts as one. So the cap is kept exactly if it is not below one or there is no round. -/
theorem caps_count_from_one (crew : Crew ω ρ) (state : ρ) (world : ω) : ∃ free : ℕ∞,
    (∀ rounds, Completes crew state world rounds ↔ rounds = free) ∧ (crew.isTold state world ↔ free = 0) ∧
    ∀ (n : Int) (fuel : Nat), max n.toNat 1 ≤ fuel → ∃ total : Nat,
      crew.ending (some n) fuel state world = .ok (.stopped total) ∧
      (total : ℕ∞) = min ((max n.toNat 1 : ℕ) : ℕ∞) free ∧
      ((total : ℕ∞) = min (n.toNat : ℕ∞) free ↔ 0 < n ∨ free = 0) := by
  obtain ⟨free, completes⟩ := exists_completes crew state world
  refine ⟨free, fun rounds => ⟨fun completes' => ?_, ?_⟩, isTold_iff completes, fun n fuel enough => ?_⟩
  · exact le_antisymm (completes.le completes') (completes'.le completes)
  · rintro rfl
    exact completes
  · obtain ⟨total, ends, bound⟩ := capped_of_completes completes n enough
    refine ⟨total, ends, bound, ?_⟩
    by_cases positive : 0 < n
    · rw [max_eq_left (by omega : 1 ≤ n.toNat)] at bound
      exact ⟨fun _ => .inl positive, fun _ => bound⟩
    · have zero : n.toNat = 0 := by omega
      rw [zero, max_eq_right (Nat.zero_le 1), Nat.cast_one] at bound
      rw [zero, Nat.cast_zero, min_eq_left zero_le, bound]
      constructor
      · intro none
        exact .inr ((min_eq_bot.mp none).resolve_left one_ne_zero)
      · rintro (contra | rfl)
        · exact absurd contra positive
        · exact min_eq_right zero_le

/-- A collector that fails, a sink that fails after it has counted its calls, and a run that is told to stop in the third
    of them. -/
def unlucky : Crew Unit Nat where
  collectors := [⟨"load", throw (.reported .runtime "no reading")⟩]
  sinks := [fun _ => do modify (· + 1); throw (.reported .system "disk full")]
  stop := ⟨do return decide (3 ≤ (← get)), fun _ => pure ()⟩
  interval := .int 1
  collects := by
    intro c member state world
    rw [List.mem_singleton.mp member]
    exact goesOn_error rfl
  takes := by
    intro sink member batch state world
    rw [List.mem_singleton.mp member]
    exact goesOn_error rfl
  waits _ _ := rfl

theorem caps_count_from_one_unlucky : ∃ free : ℕ∞, Completes unlucky 0 () free ∧
    unlucky.ending (some 5) 5 0 () = .ok (.stopped 3) ∧ (3 : ℕ∞) = min 5 free ∧
    unlucky.ending (some 2) 2 0 () = .ok (.stopped 2) ∧ (2 : ℕ∞) = min 2 free := by
  obtain ⟨free, unique, _, capped⟩ := caps_count_from_one unlucky 0 ()
  obtain ⟨total, ends, _, limited⟩ := capped 5 5 (by decide)
  obtain ⟨total', ends', _, limited'⟩ := capped 2 2 (by decide)
  have three : unlucky.ending (some 5) 5 0 () = .ok (.stopped 3) := rfl
  have two : unlucky.ending (some 2) 2 0 () = .ok (.stopped 2) := rfl
  rw [three] at ends
  rw [two] at ends'
  cases ends
  cases ends'
  exact ⟨free, (unique free).mpr rfl, three, limited.mpr (.inl (by decide)), two, limited'.mpr (.inl (by decide))⟩

/-- A run of nothing at all that is never told to stop. -/
def endless : Crew Unit Unit where
  collectors := []
  sinks := []
  stop := ⟨pure false, fun _ => pure ()⟩
  interval := .int 1
  collects := nofun
  takes := nofun
  waits _ _ := rfl

/-- A cap of zero lets one round pass. -/
theorem cap_of_zero_passes_a_round : endless.ending (some 0) 1 () () = .ok (.stopped 1) ∧
    ∀ free : ℕ∞, ((1 : ℕ) : ℕ∞) ≠ min ((0 : ℕ) : ℕ∞) free := by
  refine ⟨rfl, fun free => ?_⟩
  rw [Nat.cast_zero, min_eq_left zero_le]
  exact Nat.cast_ne_zero.mpr one_ne_zero

end CpuLoad.RoundCount
