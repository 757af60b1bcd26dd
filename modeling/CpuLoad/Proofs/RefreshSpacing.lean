import CpuLoad.Proofs.ExactClock
import CpuLoad.Proofs.StoreHistory
import CpuLoad.Sampling

/-!
How often a store takes a sample. A store is given a first sample once and is then only asked, by any number of callers
whose calls it serves one after the other in some order, at exact clock readings that may go back. Any two samples that
it takes lie further apart than the threshold (`spaced_served`), a call that is answered without a rejected sample leaves
the newest sample within the threshold (`recent_of_answered`), and of calls that are all due and lie within the threshold
of each other the first one served makes the only pull (`burst_pulls_once`).
-/
namespace CpuLoad.RefreshSpacing
open CpuLoad.ExactClock CpuLoad.Outcome CpuLoad.StoreHistory
variable {σ : Type}

/-- A call of some caller: when the store serves it, and what a pull would bring then. -/
structure Call (σ : Type) where
  now : Value
  reading : Except Fault σ

def Call.operation (call : Call σ) : Operation σ := .query call.now call.reading

/-- A store is given its only first sample, and serves the calls of all callers in some order. -/
def served (begun : Value) (first : σ) (calls : List (Call σ)) : List (Operation σ) :=
  .seed begun first :: calls.map Call.operation

def Call.isAcceptable (setup : Setup σ) (call : Call σ) : Prop :=
  ∃ sample, call.reading = .ok sample ∧ setup.accept sample = .ok true

def Call.isRejected (setup : Setup σ) (s : Store Value σ) (call : Call σ) : Prop :=
  s.due setup.threshold call.now = .ok true ∧ ∃ sample, call.reading = .ok sample ∧ setup.accept sample = .ok false

def elapsed (since now : Value) : Rat := number now - number since

/-- Whether a moment lies in the closed window that is a limit wide and begins at some time. -/
def InWindow (start : Rat) (limit : WithTop Rat) (t : Value) : Prop :=
  start ≤ number t ∧ ((number t - start : Rat) : WithTop Rat) ≤ limit

/-- The samples of a history were taken by an exact clock, each more than a limit after all earlier ones. -/
structure Spaced (readings : Set Value) (limit : WithTop Rat) (h : History σ) : Prop where
  onClock : ∀ a ∈ h, a.time ∈ readings
  apart : h.Pairwise fun newer older => limit < (elapsed older.time newer.time : WithTop Rat)

variable {setup : Setup σ} {readings : Set Value} {limit : WithTop Rat} {h : History σ}

/-! ### Spacing -/

theorem pos_of_lt {t : Rat} (nonneg : 0 ≤ limit) (beyond : limit < (t : WithTop Rat)) : 0 < t := by
  exact_mod_cast lt_of_le_of_lt nonneg beyond

private theorem lt_elapsed_trans {older newer now : Value} (nonneg : 0 ≤ limit)
    (before : limit < (elapsed older newer : WithTop Rat)) (last : limit < (elapsed newer now : WithTop Rat)) :
    limit < (elapsed older now : WithTop Rat) := by
  have positive := pos_of_lt nonneg last
  have longer : elapsed older newer ≤ elapsed older now := by
    unfold elapsed at positive ⊢
    linarith
  exact lt_of_lt_of_le before (WithTop.coe_le_coe.mpr longer)

private theorem not_both_inWindow {older newer : Value} (apart : limit < (elapsed older newer : WithTop Rat))
    (start : Rat) : ¬ (InWindow start limit older ∧ InWindow start limit newer) := by
  rintro ⟨⟨begun, _⟩, ⟨_, ended⟩⟩
  have shorter : elapsed older newer ≤ number newer - start := by
    unfold elapsed
    linarith
  have within : (elapsed older newer : WithTop Rat) ≤ limit := le_trans (WithTop.coe_le_coe.mpr shorter) ended
  exact absurd apart (not_lt_of_ge within)

/-- A history with an acceptance is due when more than the limit has passed since the newest one. -/
private theorem pulls_iff (length : limit? setup.threshold = some limit) (exact : Exact readings)
    {newest : Acceptance σ} (earlier : History σ) (past : newest.time ∈ readings) (call : Call σ)
    (current : call.now ∈ readings) :
    ∃ late, refreshDue setup.threshold call.now (History.refreshed (newest :: earlier)) = .ok late ∧
      call.operation.pulls setup (newest :: earlier) = late ∧
        (late = true ↔ limit < (elapsed newest.time call.now : WithTop Rat)) := by
  obtain ⟨late, due, beyond⟩ := exceeds_iff exact length current past
  have asked : refreshDue setup.threshold call.now (History.refreshed (newest :: earlier)) = .ok late := due
  refine ⟨late, asked, ?_, beyond⟩
  unfold Call.operation Operation.pulls
  dsimp only
  rw [asked]

/-- A call leaves a history as it is, or pulls a sample that is acceptable and is the newest then. -/
theorem extended_cases (setup : Setup σ) (h : History σ) (call : Call σ) :
    call.operation.extended setup h = h ∨
      ∃ sample, call.operation.pulls setup h = true ∧ call.reading = .ok sample ∧ setup.accepts sample = true ∧
        call.operation.extended setup h = ⟨sample, call.now, false⟩ :: h := by
  obtain ⟨now, reading⟩ := call
  unfold Call.operation
  dsimp only
  cases pulled : (Operation.query now reading).pulls setup h with
  | false => exact .inl (extended_of_held pulled)
  | true =>
    cases reading with
    | error e => exact .inl (extended_of_fault now e)
    | ok sample =>
      rw [extended_of_pulled pulled]
      by_cases accepted : setup.accepts sample = true
      · exact .inr ⟨sample, rfl, rfl, accepted, if_pos accepted⟩
      · exact .inl (if_neg accepted)

theorem spaced_extended (length : limit? setup.threshold = some limit) (nonneg : 0 ≤ limit) (exact : Exact readings)
    (spaced : Spaced readings limit h) {call : Call σ} (current : call.now ∈ readings) :
    Spaced readings limit (call.operation.extended setup h) := by
  rcases extended_cases setup h call with same | ⟨sample, pulled, _, _, same⟩
  · rw [same]
    exact spaced
  rw [same]
  refine ⟨List.forall_mem_cons.mpr ⟨current, spaced.onClock⟩, List.pairwise_cons.mpr ⟨?_, spaced.apart⟩⟩
  intro a member
  cases h with
  | nil => cases member
  | cons newest earlier =>
    obtain ⟨late, _, isLate, beyond⟩ := pulls_iff length exact earlier
      (spaced.onClock newest (List.mem_cons_self ..)) call current
    have last : limit < (elapsed newest.time call.now : WithTop Rat) := beyond.mp (isLate.symm.trans pulled)
    -- The store compares with its newest sample alone; the older ones are further back, since the limit is not negative.
    rcases List.mem_cons.mp member with rfl | older
    · exact last
    · exact lt_elapsed_trans nonneg (List.rel_of_pairwise_cons spaced.apart older) last

theorem spaced_served (length : limit? setup.threshold = some limit) (nonneg : 0 ≤ limit) (exact : Exact readings)
    {begun : Value} (opened : begun ∈ readings) (first : σ) {calls : List (Call σ)}
    (onClock : ∀ call ∈ calls, call.now ∈ readings) :
    Spaced readings limit (history setup (served begun first calls)) := by
  induction calls using List.reverseRecOn with
  | nil =>
    show Spaced readings limit (if setup.accepts first then [⟨first, begun, true⟩] else [])
    split
    · exact ⟨by simpa using opened, List.pairwise_singleton ..⟩
    · exact ⟨by simp, List.Pairwise.nil⟩
  | append_singleton calls call ih =>
    have before := ih fun c member => onClock c (List.mem_append_left _ member)
    have longer : served begun first (calls ++ [call]) = served begun first calls ++ [call.operation] := by
      simp [served]
    rw [longer, history_append]
    exact spaced_extended length nonneg exact before (onClock call (by simp))

/-! ### After a call -/

theorem recent_of_answered (length : limit? setup.threshold = some limit) (nonneg : 0 ≤ limit) (exact : Exact readings)
    (spaced : Spaced readings limit h) {call : Call σ} (current : call.now ∈ readings) {answer : Answer σ}
    (answered : call.operation.answer setup h = .ok answer)
    (taken : ¬ call.isRejected setup (h.store setup.initial)) :
    ∃ newest ∈ (call.operation.extended setup h).head?,
      (elapsed newest.time call.now : WithTop Rat) ≤ limit := by
  obtain ⟨now, reading⟩ := call
  rcases answer_cases answered with due | ⟨due, sample, accepted, rfl, judged⟩
  · have held : (Operation.query now reading).pulls setup h = false := by simp only [Operation.pulls, due]
    cases h with
    | nil => cases due
    | cons newest earlier =>
      obtain ⟨late, asked, _, beyond⟩ := pulls_iff length exact earlier
        (spaced.onClock newest (List.mem_cons_self ..)) ⟨now, reading⟩ current
      rw [due] at asked
      cases asked
      refine ⟨newest, ?_, le_of_not_gt fun contra => Bool.noConfusion (beyond.mpr contra)⟩
      unfold Call.operation
      rw [extended_of_held held]
      rfl
  · have pulled : (Operation.query now (.ok sample)).pulls setup h = true := by simp only [Operation.pulls, due]
    cases accepted with
    | false => exact absurd ⟨due, sample, rfl, judged⟩ taken
    | true =>
      have accepts : setup.accepts sample = true := by simp only [Setup.accepts, judged]
      refine ⟨⟨sample, now, false⟩, ?_, ?_⟩
      · unfold Call.operation
        rw [extended_of_pulled pulled, if_pos accepts]
        rfl
      · unfold elapsed
        rw [sub_self]
        exact nonneg

/-! ### Bursts -/

private theorem pulled_of_recent (length : limit? setup.threshold = some limit) (exact : Exact readings)
    {run : List (Operation σ)} {newest : Acceptance σ} {earlier : History σ}
    (reached : history setup run = newest :: earlier) (past : newest.time ∈ readings) {calls : List (Call σ)}
    (onClock : ∀ call ∈ calls, call.now ∈ readings)
    (recent : ∀ call ∈ calls, (elapsed newest.time call.now : WithTop Rat) ≤ limit) :
    history setup (run ++ calls.map Call.operation) = newest :: earlier ∧
      (after setup (run ++ calls.map Call.operation)).2 = (after setup run).2 := by
  induction calls using List.reverseRecOn with
  | nil =>
    rw [List.map_nil, List.append_nil]
    exact ⟨reached, rfl⟩
  | append_singleton calls call ih =>
    have ⟨stays, pulls⟩ := ih (fun c member => onClock c (List.mem_append_left _ member))
      fun c member => recent c (List.mem_append_left _ member)
    have last : call ∈ calls ++ [call] := by simp
    obtain ⟨late, _, isLate, beyond⟩ := pulls_iff length exact earlier past call (onClock call last)
    have held : call.operation.pulls setup (newest :: earlier) = false := by
      rw [isLate, Bool.eq_false_iff]
      exact fun contra => absurd (beyond.mp contra) (not_lt_of_ge (recent call last))
    rw [List.map_append, ← List.append_assoc, List.map_singleton, history_append, pulled_append, stays, held]
    refine ⟨?_, pulls⟩
    rcases extended_cases setup (newest :: earlier) call with same | ⟨_, contra, _⟩
    · exact same
    · rw [held] at contra
      cases contra

/-- Of calls that are all due, all acceptable and all within the limit of each other, the first one served pulls and no
    other. -/
theorem burst_pulls_once (length : limit? setup.threshold = some limit) (exact : Exact readings)
    {run : List (Operation σ)} {call : Call σ} {calls : List (Call σ)}
    (onClock : ∀ c ∈ call :: calls, c.now ∈ readings) (acceptable : call.isAcceptable setup)
    (due : (after setup run).1.due setup.threshold call.now = .ok true)
    (near : ∀ c ∈ calls, (elapsed call.now c.now : WithTop Rat) ≤ limit) :
    (after setup (run ++ (call :: calls).map Call.operation)).2 = (after setup run).2 + 1 := by
  obtain ⟨now, reading⟩ := call
  obtain ⟨sample, rfl, accepted⟩ : ∃ sample, reading = .ok sample ∧ setup.accept sample = .ok true := acceptable
  have asked : refreshDue setup.threshold now (history setup run).refreshed = .ok true := by
    rw [after_eq] at due
    exact due
  have pulled : (Operation.query now (.ok sample)).pulls setup (history setup run) = true := by
    simp only [Operation.pulls, asked]
  have accepts : setup.accepts sample = true := by simp only [Setup.accepts, accepted]
  have taken : history setup (run ++ [.query now (.ok sample)]) = ⟨sample, now, false⟩ :: history setup run := by
    rw [history_append, extended_of_pulled pulled, if_pos accepts]
  have rest := pulled_of_recent length exact taken (onClock _ (List.mem_cons_self ..))
    (fun c member => onClock c (List.mem_cons_of_mem _ member)) near
  have split : run ++ (Call.operation ⟨now, .ok sample⟩ :: calls.map Call.operation) =
      run ++ [.query now (.ok sample)] ++ calls.map Call.operation := by simp [Call.operation]
  rw [List.map_cons, split, rest.2, pulled_append, pulled, if_pos rfl]

/-! ### Every order of calls -/

/-- A store that is given one first sample serves calls of any number of callers in any order, at exact clock readings.
    The times at which it takes samples grow by more than the threshold each, so no window as wide as the threshold has
    two of them. A call that is answered without a rejected sample leaves the newest sample within the threshold. Calls
    that are all due, all acceptable and all within the threshold of each other make one pull, in whatever order they
    are served. -/
theorem acceptances_keep_apart (length : limit? setup.threshold = some limit) (nonneg : 0 ≤ limit)
    (exact : Exact readings) {begun : Value} (opened : begun ∈ readings) (first : σ) {calls : List (Call σ)}
    (onClock : ∀ call ∈ calls, call.now ∈ readings) :
    let run := served begun first calls
    let s := (after setup run).1
    ((history setup run).Pairwise fun newer older =>
      number older.time < number newer.time ∧ limit < (elapsed older.time newer.time : WithTop Rat) ∧
        ∀ start, ¬ (InWindow start limit older.time ∧ InWindow start limit newer.time)) ∧
    (∀ call : Call σ, call.now ∈ readings → ∀ answer,
      (outcome (call.operation.program setup) s (after setup run).2).1 = .ok answer → ¬ call.isRejected setup s →
        ∃ t ∈ (outcome (call.operation.program setup) s (after setup run).2).2.1.refreshed,
          ((number call.now - number t : Rat) : WithTop Rat) ≤ limit) ∧
    ∀ burst order : List (Call σ), order.Perm burst → burst ≠ [] →
      (∀ call ∈ burst, call.now ∈ readings ∧ call.isAcceptable setup ∧
        s.due setup.threshold call.now = .ok true) →
      (∀ call ∈ burst, ∀ other ∈ burst, (elapsed call.now other.now : WithTop Rat) ≤ limit) →
        (after setup (run ++ order.map Call.operation)).2 = (after setup run).2 + 1 := by
  have spaced := spaced_served length nonneg exact opened first onClock
  refine ⟨?_, ?_, ?_⟩
  · refine spaced.apart.imp ?_
    intro newer older apart
    refine ⟨?_, apart, not_both_inWindow apart⟩
    have positive := pos_of_lt nonneg apart
    unfold elapsed at positive
    linarith
  · intro call current answer answered taken
    rw [after_eq] at taken
    rw [after_eq, outcome_program] at answered ⊢
    obtain ⟨newest, head, recent⟩ := recent_of_answered length nonneg exact spaced current answered taken
    refine ⟨newest.time, ?_, recent⟩
    cases reached : call.operation.extended setup (history setup (served begun first calls)) with
    | nil =>
      rw [reached] at head
      cases head
    | cons a earlier =>
      rw [reached] at head
      cases head
      rfl
  · intro burst order permuted nonempty each near
    have member {c : Call σ} (among : c ∈ order) : c ∈ burst := permuted.mem_iff.mp among
    cases order with
    | nil => exact absurd permuted.nil_eq.symm nonempty
    | cons call calls =>
      have head : call ∈ burst := member (List.mem_cons_self ..)
      refine burst_pulls_once length exact ?_ (each call head).2.1 (each call head).2.2 ?_
      · intro c among
        exact (each c (member among)).1
      · intro c among
        exact near call head c (member (List.mem_cons_of_mem _ among))

/-! A store of rows, two callers at the same time, and one of them half a second earlier. -/

def bySecond : Setup Snapshot := ⟨Sampling.systemStore, Sampler.acceptRow, .float 950.0, .zero⟩

def begun : Value := .float 0.0

def early : Call Snapshot := ⟨.float 1000.0, .ok ⟨2, 0, 0, 1, 0, 0, 0⟩⟩

def late : Call Snapshot := ⟨.float 1500.0, .ok ⟨3, 0, 0, 1, 0, 0, 0⟩⟩

theorem acceptances_keep_apart_in_a_burst :
    (after bySecond (served begun ⟨1, 0, 0, 0, 0, 0, 0⟩ [] ++ [late, early, late].map Call.operation)).2 =
      (after bySecond (served begun ⟨1, 0, 0, 0, 0, 0, 0⟩ [])).2 + 1 := by
  have length : limit? bySecond.threshold = some ((950 : Rat) : WithTop Rat) := by decide +kernel
  have nonneg : (0 : WithTop Rat) ≤ ((950 : Rat) : WithTop Rat) := by exact_mod_cast (by norm_num : (0 : Rat) ≤ 950)
  have exact : Exact {Value.float 0.0, Value.float 1000.0, Value.float 1500.0} := by
    rintro _ (rfl | rfl | rfl) _ (rfl | rfl | rfl) <;> exact ⟨_, rfl, by decide +kernel⟩
  have law := @acceptances_keep_apart Snapshot bySecond _ _ length nonneg exact begun (.inl rfl)
    ⟨1, 0, 0, 0, 0, 0, 0⟩ [] (by simp)
  refine law.2.2 [early, late, late] [late, early, late] (List.Perm.swap ..) (by simp) ?_ ?_
  · rintro call (member : call ∈ [early, late, late])
    have known : call = early ∨ call = late := by simpa using member
    rcases known with rfl | rfl
    · exact ⟨.inr (.inl rfl), ⟨_, rfl, rfl⟩, rfl⟩
    · exact ⟨.inr (.inr rfl), ⟨_, rfl, rfl⟩, rfl⟩
  · have near : ∀ call ∈ [early, late, late], ∀ other ∈ [early, late, late],
        elapsed call.now other.now ≤ 950 := by decide +kernel
    intro call member other member'
    exact_mod_cast near call member other member'

end CpuLoad.RefreshSpacing
