import CpuLoad.Proofs.Outcome
import Mathlib.Data.List.Induction

/-!
What a store holds after a run, told from the run's history alone. The history lists the samples that were accepted, the
newest first, each with its time and whether it was a first sample. An operation offers a sample if it brings a first one
or pulls one, and the sample joins the history exactly if it is acceptable. Whatever the order of operations and of clock
readings, a store holds what the history says, it answers what the history says, and it pulls once for each query that
is due by the history and never else (`outcome_program`, `after_eq`).
-/
namespace CpuLoad.StoreHistory
open CpuLoad.Channel CpuLoad.Outcome
variable {σ : Type}

structure Setup (σ : Type) where
  name : String
  accept : Judgement σ
  threshold : Value
  initial : σ

/-- Whether a sample is acceptable. One that cannot be judged is not. -/
def Setup.accepts (setup : Setup σ) (sample : σ) : Bool :=
  match setup.accept sample with
  | .ok accepted => accepted
  | .error _ => false

/-! ### Histories -/

structure Acceptance (σ : Type) where
  sample : σ
  time : Value
  isFirst : Bool

/-- The accepted samples, the newest first. -/
abbrev History (σ : Type) := List (Acceptance σ)

namespace History

/-- The newest sample, the initial one if none was accepted. -/
def current (initial : σ) : History σ → σ
  | [] => initial
  | newest :: _ => newest.sample

/-- The sample before the newest one. A first sample is both. -/
def previous (initial : σ) : History σ → σ
  | [] => initial
  | newest :: earlier => if newest.isFirst then newest.sample else current initial earlier

def refreshed : History σ → Option Value
  | [] => none
  | newest :: _ => some newest.time

def store (initial : σ) (h : History σ) : Store Value σ := ⟨h.previous initial, h.current initial, h.refreshed⟩

end History

/-! ### Operations -/

/-- An operation on a store. A query is labelled with the reading that a pull would bring at that moment. -/
inductive Operation (σ : Type)
  | seed (now : Value) (sample : σ)
  | due (now : Value)
  | query (now : Value) (reading : Except Fault σ)

inductive Answer (σ : Type)
  | taken (accepted : Bool)
  | late (due : Bool)
  | pair (generations : σ × σ)

namespace Operation
variable (setup : Setup σ) (h : History σ)

def pulls : Operation σ → Bool
  | query now _ =>
    match refreshDue setup.threshold now h.refreshed with
    | .ok late => late
    | .error _ => false
  | _ => false

/-- The sample that an operation offers after a history: a first one, or one that it pulls. -/
def offered : Operation σ → Option (Acceptance σ)
  | seed now sample => some ⟨sample, now, true⟩
  | due _ => none
  | query now reading =>
    match (query now reading).pulls setup h, reading with
    | true, .ok sample => some ⟨sample, now, false⟩
    | _, _ => none

/-- The history with the sample that an operation offers, if it is acceptable. -/
def extended (op : Operation σ) : History σ :=
  match op.offered setup h with
  | some a => if setup.accepts a.sample then a :: h else h
  | none => h

/-- What an operation answers after a history. A query that answers gives the two generations that the history has
    afterwards. -/
def answer : Operation σ → Except Fault (Answer σ)
  | seed _ sample => (setup.accept sample).map .taken
  | due now => (refreshDue setup.threshold now h.refreshed).map .late
  | query now reading => do
    if ← refreshDue setup.threshold now h.refreshed then
      let _ ← setup.accept (← reading)
    return .pair (((query now reading).extended setup h).store setup.initial).pair

/-- A pull: it is counted, and brings its reading or fails. -/
def pull (reading : Except Fault σ) : ChannelM (StateM Nat) (Store Value σ) σ := do
  ExceptT.lift (StateT.lift (modify (· + 1)))
  MonadExcept.ofExcept reading

/-- The operation as the program runs it. The world counts the pulls. -/
def program : Operation σ → ChannelM (StateM Nat) (Store Value σ) (Answer σ)
  | seed now sample => .taken <$> Channel.seed setup.name (Store.seed setup.accept now sample)
  | due now => do return .late (← MonadExcept.ofExcept ((← get).due setup.threshold now))
  | query now reading =>
    .pair <$> refresh setup.name setup.accept setup.threshold now id
      (Store.query setup.accept setup.threshold now) (pull reading)

end Operation

/-! ### One operation -/

section
variable {setup : Setup σ} {h : History σ} {n : Nat}

private theorem outcome_pull (reading : Except Fault σ) (s : Store Value σ) :
    outcome (Operation.pull reading) s n = (reading, s, n + 1) := by
  cases reading <;> rfl

/-- A first sample joins the history exactly if the store takes it. -/
private theorem seed_store (now : Value) (sample : σ) :
    (h.store setup.initial).seed setup.accept now sample =
      (setup.accept sample, ((Operation.seed now sample).extended setup h).store setup.initial) := by
  unfold Store.seed Operation.extended Operation.offered Setup.accepts
  dsimp only
  cases setup.accept sample with
  | error e => rfl
  | ok accepted => cases accepted <;> rfl

/-- A sample that is pulled joins the history exactly if the store takes it. -/
private theorem query_store {now : Value} (reading : Except Fault σ)
    (due : refreshDue setup.threshold now h.refreshed = .ok true) :
    ((h.store setup.initial).query setup.accept setup.threshold now reading).1.map Answer.pair =
        (Operation.query now reading).answer setup h ∧
      ((h.store setup.initial).query setup.accept setup.threshold now reading).2 =
        ((Operation.query now reading).extended setup h).store setup.initial := by
  have pulls : (Operation.query now reading).pulls setup h = true := by simp only [Operation.pulls, due]
  have late : (h.store setup.initial).due setup.threshold now = .ok true := due
  unfold Store.query Operation.answer Operation.extended Operation.offered Setup.accepts
  simp only [due, late, pulls, bind, Except.bind]
  cases reading with
  | error e => exact ⟨rfl, rfl⟩
  | ok sample =>
    unfold Store.offer
    dsimp only
    cases setup.accept sample with
    | error e => exact ⟨rfl, rfl⟩
    | ok accepted => cases accepted <;> exact ⟨rfl, rfl⟩

/-- A query that is not due by the history pulls nothing, and the history stays. -/
private theorem query_of_held {now : Value} (reading : Except Fault σ)
    (held : refreshDue setup.threshold now h.refreshed ≠ .ok true) :
    (Operation.query now reading).pulls setup h = false ∧ (Operation.query now reading).extended setup h = h ∧
      (Operation.query now reading).answer setup h =
        (refreshDue setup.threshold now h.refreshed).map fun _ => .pair (h.store setup.initial).pair := by
  cases late : refreshDue setup.threshold now h.refreshed with
  | error e =>
    have pulls : (Operation.query now reading).pulls setup h = false := by simp only [Operation.pulls, late]
    refine ⟨pulls, by simp only [Operation.extended, Operation.offered, pulls], ?_⟩
    simp only [Operation.answer, late]
    rfl
  | ok due =>
    cases due with
    | true => exact absurd late held
    | false =>
      have pulls : (Operation.query now reading).pulls setup h = false := by simp only [Operation.pulls, late]
      have stays : (Operation.query now reading).extended setup h = h := by
        simp only [Operation.extended, Operation.offered, pulls]
      refine ⟨pulls, stays, ?_⟩
      simp only [Operation.answer, late, stays]
      rfl

theorem extended_of_held {now : Value} {reading : Except Fault σ}
    (held : (Operation.query now reading).pulls setup h = false) : (Operation.query now reading).extended setup h = h := by
  simp only [Operation.extended, Operation.offered, held]

theorem extended_of_fault (now : Value) (e : Fault) : (Operation.query now (.error e)).extended setup h = h := by
  cases pulled : (Operation.query now (.error e)).pulls setup h <;>
    simp only [Operation.extended, Operation.offered, pulled]

theorem extended_of_pulled {now : Value} {sample : σ}
    (pulled : (Operation.query now (.ok sample)).pulls setup h = true) :
    (Operation.query now (.ok sample)).extended setup h =
      if setup.accepts sample then ⟨sample, now, false⟩ :: h else h := by
  simp only [Operation.extended, Operation.offered, pulled]

/-- A query is answered if it is not due, or if it pulls a sample that can be judged. -/
theorem answer_cases {now : Value} {reading : Except Fault σ} {answer : Answer σ}
    (answered : (Operation.query now reading).answer setup h = .ok answer) :
    refreshDue setup.threshold now h.refreshed = .ok false ∨
      refreshDue setup.threshold now h.refreshed = .ok true ∧
        ∃ sample accepted, reading = .ok sample ∧ setup.accept sample = .ok accepted := by
  unfold Operation.answer at answered
  cases due : refreshDue setup.threshold now h.refreshed with
  | error e =>
    simp only [due] at answered
    cases answered
  | ok late =>
    cases late with
    | false => exact .inl rfl
    | true =>
      right
      simp only [due] at answered
      cases reading with
      | error e => cases answered
      | ok sample =>
        cases judged : setup.accept sample with
        | error e =>
          simp only [bind, Except.bind, ↓reduceIte, judged] at answered
          cases answered
        | ok accepted => exact ⟨rfl, sample, accepted, rfl, judged⟩

/-- An operation after a history answers what the history says and leaves the store as the history says then. -/
theorem outcome_program (op : Operation σ) :
    outcome (op.program setup) (h.store setup.initial) n =
      (op.answer setup h, (op.extended setup h).store setup.initial, if op.pulls setup h then n + 1 else n) := by
  cases op with
  | seed now sample =>
    show outcome (Answer.taken <$> Channel.seed _ _) _ n = _
    rw [outcome_map, outcome_seed, seed_store]
    rfl
  | due now =>
    unfold Operation.program
    rw [outcome_bind, outcome_get, andThen_ok, outcome_bind, outcome_ofExcept]
    show andThen (refreshDue setup.threshold now h.refreshed, _) _ =
      ((refreshDue setup.threshold now h.refreshed).map Answer.late, _)
    cases refreshDue setup.threshold now h.refreshed <;> rfl
  | query now reading =>
    have late : (id (h.store setup.initial)).due setup.threshold now = refreshDue setup.threshold now h.refreshed := rfl
    unfold Operation.program
    rw [outcome_map, outcome_refresh, late]
    by_cases due : refreshDue setup.threshold now h.refreshed = .ok true
    · obtain ⟨answered, left⟩ := query_store reading due
      have pulls : (Operation.query now reading).pulls setup h = true := by simp only [Operation.pulls, due]
      rw [due, outcome_pull, pulls, ← answered, ← left]
      rfl
    · obtain ⟨pulls, stays, answered⟩ := query_of_held reading due
      rw [pulls, stays, answered]
      cases held : refreshDue setup.threshold now h.refreshed with
      | error e => rfl
      | ok late =>
        cases late with
        | false => rfl
        | true => exact absurd held due

end

/-! ### Runs -/

def history (setup : Setup σ) (run : List (Operation σ)) : History σ :=
  run.foldl (fun h op => op.extended setup h) []

/-- What a run leaves of a new store, and the number of its pulls. -/
def after (setup : Setup σ) (run : List (Operation σ)) : Store Value σ × Nat :=
  run.foldl (fun reached op => (outcome (op.program setup) reached.1 reached.2).2) (.start setup.initial, 0)

variable {setup : Setup σ}

@[simp] theorem history_append (run : List (Operation σ)) (op : Operation σ) :
    history setup (run ++ [op]) = op.extended setup (history setup run) := by
  unfold history
  rw [List.foldl_append]
  rfl

private theorem after_append (run : List (Operation σ)) (op : Operation σ) :
    after setup (run ++ [op]) = (outcome (op.program setup) (after setup run).1 (after setup run).2).2 := by
  unfold after
  rw [List.foldl_append]
  rfl

theorem after_eq (run : List (Operation σ)) : (after setup run).1 = (history setup run).store setup.initial := by
  induction run using List.reverseRecOn with
  | nil => rfl
  | append_singleton run op ih => rw [after_append, ih, outcome_program, history_append]

/-- A run of one more operation pulls once more exactly if the history makes that operation pull. -/
theorem pulled_append (run : List (Operation σ)) (op : Operation σ) :
    (after setup (run ++ [op])).2 =
      if op.pulls setup (history setup run) then (after setup run).2 + 1 else (after setup run).2 := by
  rw [after_append, after_eq, outcome_program]

private theorem mem_extended_iff {h : History σ} {op : Operation σ} {a : Acceptance σ} :
    a ∈ op.extended setup h ↔ a ∈ h ∨ op.offered setup h = some a ∧ setup.accepts a.sample := by
  unfold Operation.extended
  cases offered : op.offered setup h with
  | none => simp
  | some b =>
    by_cases accepted : setup.accepts b.sample
    · simp only [accepted, ↓reduceIte, List.mem_cons, Option.some.injEq]
      constructor
      · rintro (rfl | member)
        · exact .inr ⟨rfl, accepted⟩
        · exact .inl member
      · rintro (member | ⟨rfl, _⟩)
        · exact .inr member
        · exact .inl rfl
    · simp only [accepted, Option.some.injEq]
      constructor
      · exact .inl
      · rintro (member | ⟨rfl, contra⟩)
        · exact member
        · exact absurd contra accepted

/-- A sample is in a run's history exactly if some operation of the run offers it and it is acceptable. -/
theorem mem_history_iff (run : List (Operation σ)) (a : Acceptance σ) :
    a ∈ history setup run ↔ ∃ earlier op later, run = earlier ++ op :: later ∧
      op.offered setup (history setup earlier) = some a ∧ setup.accepts a.sample := by
  induction run using List.reverseRecOn with
  | nil => simp [history]
  | append_singleton run op ih =>
    rw [history_append, mem_extended_iff, ih]
    constructor
    · rintro (⟨earlier, before, later, rfl, offered⟩ | offered)
      · exact ⟨earlier, before, later ++ [op], by simp, offered⟩
      · exact ⟨run, op, [], rfl, offered⟩
    · rintro ⟨earlier, before, later, split, offered⟩
      rcases append_singleton_eq_iff.mp split with ⟨rfl, rfl, _⟩ | ⟨inner, _, rfl⟩
      · exact .inr offered
      · exact .inl ⟨earlier, before, inner, rfl, offered⟩

/-- A store holds after any run what the run's history says. One more operation answers what the history says, extends
    the history by at most the sample that it offers, and pulls once if the history makes it due and else not at all. -/
theorem store_follows_history (setup : Setup σ) (before : List (Operation σ)) (op : Operation σ) :
    (after setup before).1 = (history setup before).store setup.initial ∧
      outcome (op.program setup) (after setup before).1 (after setup before).2 =
        (op.answer setup (history setup before), (history setup (before ++ [op])).store setup.initial,
          if op.pulls setup (history setup before) then (after setup before).2 + 1 else (after setup before).2) ∧
      ∀ a, a ∈ history setup before ↔ ∃ earlier offering later, before = earlier ++ offering :: later ∧
        offering.offered setup (history setup earlier) = some a ∧ setup.accepts a.sample := by
  refine ⟨after_eq before, ?_, mem_history_iff before⟩
  rw [after_eq, outcome_program, history_append]

end CpuLoad.StoreHistory
