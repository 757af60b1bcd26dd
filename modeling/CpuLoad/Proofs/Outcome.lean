import CpuLoad.Channel
import CpuLoad.ProcSource

/-!
What an operation does when it is run. Its outcome is its answer or its fault together with the state and the world that
it leaves; the world `ω` is whatever the operation draws on besides its own state, and reports go nowhere. Each way of
putting operations together has an equation for its outcome, and so have the operations that feed a store or a meter.
-/
namespace CpuLoad

/-- Reports that nobody reads. A notice without a wording is let go. -/
instance : Log Id where
  record _ := ()
  spoilt _ := .ok ()

namespace Outcome
open CpuLoad.Channel
variable {ω ρ σ α β : Type}

/-- The answer of an operation, with the state and the world after it. -/
def outcome (x : ChannelM (StateM ω) ρ α) (state : ρ) (world : ω) : Except Fault α × ρ × ω :=
  let result := (x.run.run state).run world
  (result.1.1, result.1.2, result.2)

def andThen (first : Except Fault α × ρ × ω) (next : α → ρ → ω → Except Fault β × ρ × ω) : Except Fault β × ρ × ω :=
  match first with
  | (.ok a, state, world) => next a state world
  | (.error e, state, world) => (.error e, state, world)

@[simp] theorem andThen_ok (a : α) (state : ρ) (world : ω) (next : α → ρ → ω → Except Fault β × ρ × ω) :
    andThen (.ok a, state, world) next = next a state world := rfl

@[simp] theorem andThen_error (e : Fault) (state : ρ) (world : ω) (next : α → ρ → ω → Except Fault β × ρ × ω) :
    andThen (.error e, state, world) next = (.error e, state, world) := rfl

theorem andThen_assoc {γ : Type} (first : Except Fault α × ρ × ω) (next : α → ρ → ω → Except Fault β × ρ × ω)
    (last : β → ρ → ω → Except Fault γ × ρ × ω) :
    andThen (andThen first next) last = andThen first fun a state world => andThen (next a state world) last := by
  rcases first with ⟨e | a, state, world⟩ <;> rfl

/-! ### Answers of results put together -/

section
variable {r : Except Fault α} {y : β}

theorem eq_ok_of_map {f : α → β} (answered : r.map f = .ok y) : ∃ a, r = .ok a ∧ f a = y := by
  cases result : r with
  | error e =>
    rw [result] at answered
    cases answered
  | ok a =>
    rw [result] at answered
    exact ⟨a, rfl, Except.ok.inj answered⟩

theorem eq_ok_of_bind {f : α → Except Fault β} (answered : r.bind f = .ok y) : ∃ a, r = .ok a ∧ f a = .ok y := by
  cases result : r with
  | error e =>
    rw [result] at answered
    cases answered
  | ok a =>
    rw [result] at answered
    exact ⟨a, rfl, answered⟩

end

/-! ### Operations put together -/

section
variable {x : ChannelM (StateM ω) ρ α} {f : α → ChannelM (StateM ω) ρ β} {state : ρ} {world : ω}

@[simp] theorem outcome_pure (a : α) : outcome (pure a : ChannelM (StateM ω) ρ α) state world = (.ok a, state, world) :=
  rfl

@[simp] theorem outcome_throw (e : Fault) :
    outcome (throw e : ChannelM (StateM ω) ρ α) state world = (.error e, state, world) := rfl

@[simp] theorem outcome_bind :
    outcome (x >>= f) state world = andThen (outcome x state world) fun a => outcome (f a) := by
  unfold outcome
  rcases result : (x.run.run state).run world with ⟨⟨e | a, reached⟩, rest⟩ <;>
    · simp only [ExceptT.run_bind, StateT.run_bind, result]
      rfl

/-- The same as an equation of functions, for operations under a binder. -/
theorem outcome_bind_fun (x : ChannelM (StateM ω) ρ α) (f : α → ChannelM (StateM ω) ρ β) :
    outcome (x >>= f) = fun state world => andThen (outcome x state world) fun a => outcome (f a) :=
  funext fun _ => funext fun _ => outcome_bind

@[simp] theorem outcome_map (g : α → β) :
    outcome (g <$> x) state world = ((outcome x state world).1.map g, (outcome x state world).2) := by
  rw [map_eq_pure_bind, outcome_bind]
  rcases outcome x state world with ⟨e | a, s, w⟩ <;> rfl

@[simp] theorem outcome_get : outcome (get : ChannelM (StateM ω) ρ ρ) state world = (.ok state, state, world) := rfl

@[simp] theorem outcome_set (s : ρ) :
    outcome (set s : ChannelM (StateM ω) ρ PUnit) state world = (.ok (), s, world) := rfl

@[simp] theorem outcome_modify (g : ρ → ρ) :
    outcome (modify g : ChannelM (StateM ω) ρ PUnit) state world = (.ok (), g state, world) := rfl

@[simp] theorem outcome_ofExcept (r : Except Fault α) :
    outcome (MonadExcept.ofExcept r : ChannelM (StateM ω) ρ α) state world = (r, state, world) := by
  cases r <;> rfl

@[simp] theorem outcome_attempt :
    outcome (Fault.attempt x) state world =
      (.ok (outcome x state world).1, (outcome x state world).2.1, (outcome x state world).2.2) := rfl

/-- A notice changes nothing, whether it has a wording or not. -/
@[simp] theorem outcome_note (n : Notice) :
    outcome (note n : ChannelM (StateM ω) ρ Unit) state world = (.ok (), state, world) := by
  unfold note
  cases n.text <;> rfl

end

/-- An operation on a part of the state leaves the other parts, also if it fails. -/
theorem outcome_onPart (part : ρ) (put : ρ → σ → σ) (x : ChannelM (StateM ω) ρ α) (state : σ) (world : ω) :
    outcome (Fault.onPart part put x) state world =
      ((outcome x part world).1, put (outcome x part world).2.1 state, (outcome x part world).2.2) := by
  have run : outcome (ExceptT.lift (StateT.lift (x.run.run part)) : ChannelM (StateM ω) σ (Except Fault α × ρ)) state world =
      (.ok ((outcome x part world).1, (outcome x part world).2.1), state, (outcome x part world).2.2) := rfl
  unfold Fault.onPart
  rw [outcome_bind, run, andThen_ok, outcome_bind, outcome_modify, andThen_ok, outcome_ofExcept]

/-! ### Operations on the world alone -/

section
variable {x : ExceptT Fault (StateM ω) α} {f : α → ExceptT Fault (StateM ω) β} {a : α} {e : Fault} {world left : ω}

theorem run_bind_ok (answered : x.run.run world = (.ok a, left)) : (x >>= f).run.run world = (f a).run.run left := by
  simp only [ExceptT.run_bind, StateT.run_bind, answered]
  rfl

theorem run_bind_error (failed : x.run.run world = (.error e, left)) : (x >>= f).run.run world = (.error e, left) := by
  simp only [ExceptT.run_bind, StateT.run_bind, failed]
  rfl

theorem run_ofExcept (r : Except Fault α) (world : ω) :
    (MonadExcept.ofExcept r : ExceptT Fault (StateM ω) α).run.run world = (r, world) := by
  cases r <;> rfl

theorem run_lift (x : StateM ω α) (world : ω) :
    (ExceptT.lift x : ExceptT Fault (StateM ω) α).run.run world = (.ok (x.run world).1, (x.run world).2) := rfl

theorem run_attempt (x : ExceptT Fault (StateM ω) α) (world : ω) :
    (Fault.attempt x).run.run world = (.ok (x.run.run world).1, (x.run.run world).2) := rfl

theorem run_request (x : StateM ω (Except FileFault α)) (world : ω) :
    (Files.request x).run.run world = ((x.run world).1.mapError .file, (x.run world).2) := rfl

end

/-! ### Texts of files -/

section
variable [Files (StateM ω)] {path : String} {found : Option String} {world left : ω}

/-- What a file has, or nothing if the system refuses to open it, and the surroundings after it was read. -/
inductive Opens (path : String) (world : ω) : Option String → ω → Prop
  | opened {bytes : ByteArray} {text : String} {left : ω}
      (read : (Files.read path : StateM ω (Except FileFault ByteArray)).run world = (.ok bytes, left))
      (decoded : Files.decode bytes = .ok text) : Opens path world (some text) left
  | refused {fault : FileFault} {left : ω}
      (read : (Files.read path : StateM ω (Except FileFault ByteArray)).run world = (.error fault, left))
      (refusal : fault.cause.isRefusal) : Opens path world none left

theorem run_readIfOpen (opens : Opens path world found left) :
    ∃ r, (ProcSource.readIfOpen path : ExceptT Fault (StateM ω) (Except FileFault String)).run.run world = (.ok r, left) ∧
      r.toOption = found := by
  cases opens with
  | @opened bytes text left read decoded =>
    have known : (Files.readText path : ExceptT Fault (StateM ω) String).run.run world = (.ok text, left) := by
      have requested : (Files.request (Files.read path) : ExceptT Fault (StateM ω) ByteArray).run.run world =
          (.ok bytes, left) := by
        rw [run_request, read]
        rfl
      refine (run_bind_ok requested).trans ?_
      rw [decoded, run_ofExcept]
    have attempted := run_attempt (Files.readText path : ExceptT Fault (StateM ω) String) world
    rw [known] at attempted
    exact ⟨.ok text, run_bind_ok attempted, rfl⟩
  | @refused fault left read refusal =>
    have known : (Files.readText path : ExceptT Fault (StateM ω) String).run.run world = (.error (.file fault), left) := by
      refine run_bind_error ?_
      rw [run_request, read]
      rfl
    have attempted := run_attempt (Files.readText path : ExceptT Fault (StateM ω) String) world
    rw [known] at attempted
    refine ⟨.error fault, (run_bind_ok attempted).trans ?_, rfl⟩
    dsimp only
    rw [if_pos refusal]
    rfl

theorem run_readOrNote (opens : Opens path world found left) :
    (ProcSource.readOrNote path : ExceptT Fault (StateM ω) (Option String)).run.run world = (.ok found, left) := by
  obtain ⟨r, read, rfl⟩ := run_readIfOpen opens
  refine (run_bind_ok read).trans ?_
  cases r <;> rfl

end

/-! ### Stores and meters -/

/-- What a step makes of an outcome, be it an answer or a fault. -/
def taking (first : Except Fault α × ρ × ω) (take : Except Fault α → ρ → Except Fault β × ρ) : Except Fault β × ρ × ω :=
  let result := take first.1 first.2.1
  (result.1, result.2, first.2.2)

section
variable {state : ρ} {world : ω}

@[simp] theorem outcome_settle (step : ρ → Except Fault α × ρ) :
    outcome (settle step : ChannelM (StateM ω) ρ α) state world = ((step state).1, (step state).2, world) := by
  simp [settle]

/-- The notice of a first sample that is not taken changes nothing. -/
@[simp] theorem outcome_seed (name : String) (take : ρ → Except Fault Bool × ρ) :
    outcome (seed name take : ChannelM (StateM ω) ρ Bool) state world = ((take state).1, (take state).2, world) := by
  unfold seed
  rw [outcome_bind, outcome_settle]
  rcases take state with ⟨e | taken, s⟩
  · rfl
  · cases taken <;> rfl

variable {name : String} {accept : Judgement σ} {threshold now : Value} {store : ρ → Store Value σ}
  {query : Except Fault σ → ρ → Except Fault (σ × σ) × ρ} {pull : ChannelM (StateM ω) ρ σ}

/-- A store that is asked pulls if it is due, and takes what the pull brings. Else it answers the generations it has, or
    the fault of the comparison. -/
theorem outcome_refresh :
    outcome (refresh name accept threshold now store query pull) state world =
      match (store state).due threshold now with
      | .error e => (.error e, state, world)
      | .ok false => (.ok (store state).pair, state, world)
      | .ok true => taking (outcome pull state world) query := by
  unfold refresh
  rw [outcome_bind, outcome_get, andThen_ok, outcome_bind, outcome_note, andThen_ok, outcome_bind, outcome_ofExcept]
  cases (store state).due threshold now with
  | error e => rfl
  | ok due =>
    cases due with
    | false => rfl
    | true =>
      simp only [andThen_ok, ↓reduceIte, outcome_bind, outcome_attempt]
      rcases outcome pull state world with ⟨e | sample, s, w⟩
      · exact outcome_settle _
      · dsimp only
        cases accept sample with
        | error e => exact outcome_settle _
        | ok accepted =>
          cases accepted with
          | true => exact outcome_settle _
          | false =>
            show outcome (note _ >>= fun _ => settle _) s w = _
            rw [outcome_bind, outcome_note]
            exact outcome_settle _

variable {hold : Value} {kept : Float} {meter : Meter Value} {poll : ChannelM (StateM ω) ρ Value}
  {step : Except Fault (Option Float) → ρ → Except Fault Float × ρ}

/-- The notice of a direct reading that is not available changes nothing. -/
@[simp] theorem outcome_reading :
    outcome (reading kept poll) state world =
      andThen (outcome poll state world) fun v s w => (Meter.percentOf v, s, w) := by
  unfold reading
  rw [outcome_bind]
  rcases outcome poll state world with ⟨e | v, s, w⟩
  · rfl
  · rw [andThen_ok, andThen_ok, outcome_bind, outcome_ofExcept]
    cases Meter.percentOf v with
    | error e => rfl
    | ok percent =>
      show outcome (if (Meter.available percent).isNone = true then _ else _) s w = _
      cases (Meter.available percent).isNone <;> rfl

/-- A meter that is asked polls if it is due, and takes what the poll brings. Else it answers the value it has, or the
    fault of the comparison. -/
theorem outcome_measure :
    outcome (Channel.measure hold now meter step poll) state world =
      match meter.due hold now with
      | .error e => (.error e, state, world)
      | .ok false => (.ok meter.value, state, world)
      | .ok true => taking (andThen (outcome poll state world) fun v s w => (Meter.percentOf v, s, w)) step := by
  unfold Channel.measure
  rw [outcome_bind, outcome_ofExcept]
  cases meter.due hold now with
  | error e => rfl
  | ok due =>
    cases due with
    | false => rfl
    | true =>
      simp only [andThen_ok, ↓reduceIte, outcome_bind, outcome_attempt, outcome_settle, outcome_reading]
      rfl

end

/-! ### Runs -/

/-- Some place in a run that has one more step at its end is the end, or a place in the run before. -/
theorem append_singleton_eq_iff {xs front back : List α} {x y : α} :
    xs ++ [x] = front ++ y :: back ↔
      (xs = front ∧ x = y ∧ back = []) ∨ ∃ inner, back = inner ++ [x] ∧ xs = front ++ y :: inner := by
  constructor
  · intro split
    rcases List.eq_nil_or_concat back with rfl | ⟨inner, last, rfl⟩
    · obtain ⟨rfl, same⟩ := List.append_inj' split rfl
      exact .inl ⟨rfl, List.singleton_inj.mp same, rfl⟩
    · have before : xs ++ [x] = (front ++ y :: inner) ++ [last] := by simpa using split
      obtain ⟨rfl, same⟩ := List.append_inj' before rfl
      cases same
      exact .inr ⟨inner, List.concat_eq_append, rfl⟩
  · rintro (⟨rfl, rfl, rfl⟩ | ⟨inner, rfl, rfl⟩)
    · rfl
    · simp

end Outcome
end CpuLoad
