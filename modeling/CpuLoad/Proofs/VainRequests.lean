import CpuLoad.Proofs.DoubleDifference
import CpuLoad.Proofs.Lanes

/-!
Requests that bring nothing. A request is a query together with what the source would bring to it at that moment. It is
in vain if that fails or is zero for everything that is counted. Such a request leaves the sampler as it is
(`sampler_of_vain`), and what a request answers depends on the sampler alone (`answer_of_sampler`); so a run without some
of its vain requests answers the others in the same way (`serve_kept`). After a vain pull the store is as overdue as
before, and every later query of its lane pulls again (`due_of_later`).
-/
namespace CpuLoad.VainRequests
open CpuLoad.DoubleDifference CpuLoad.ExactClock CpuLoad.Lanes CpuLoad.Outcome CpuLoad.Sampling CpuLoad.Scripted

/-! ### Requests -/

/-- A query, and what the source would bring to it at that moment. -/
structure Request where
  call : Call
  reading : Except Fault Value

/-- The source when it brings a reading, whatever is asked. -/
def bringing (script : Script) (reading : Except Fault Value) : Script :=
  { script with
    rows := fun _ => reading
    matrices := fun _ => reading
    percents := script.percents.map fun _ _ => reading
    uptime := reading
    averages := fun _ => reading.bind Value.entries }

namespace Request
variable (usesDirect : Bool) (cores : Int) (r : Request)

def row : Except Fault Snapshot := do Snapshot.ofReading (← r.reading)

def matrix : Except Fault (List Snapshot) := do
  let matrix ← r.reading
  let _ ← matrix.size
  Sampler.matrixOf cores (← matrix.entries)

def percent : Except Fault (Option Float) := do Meter.percentOf (← r.reading)

/-- Whether a pull for the request fails, at the source or because what it brings cannot be read. -/
def Fails : Prop :=
  match laneOf usesDirect r.call.query with
  | some .system => ∃ e, r.row = .error e
  | some .processors => ∃ e, r.matrix cores = .error e
  | some .direct => ∃ e, r.percent = .error e
  | none => False

/-- Whether a pull for the request brings zeros alone, in all that is kept of it. -/
def IsZero : Prop :=
  match laneOf usesDirect r.call.query with
  | some .system => r.row = .ok .zero
  | some .processors => ∃ rows, r.matrix cores = .ok rows ∧ ∀ row ∈ rows, row = .zero
  | _ => False

def InVain : Prop := r.Fails usesDirect cores ∨ r.IsZero usesDirect cores

def Asks (lane : Lane) : Prop := figureOf usesDirect r.call.query = some lane

def answer (script : Script) (a : Stage) : Except Fault Answer × Stage := a.answer (bringing script r.reading) r.call

end Request

def pulls (p : Progress) : Lane → Nat
  | .system => p.rows
  | .processors => p.matrices
  | .direct => p.percents

def Request.Pulls (script : Script) (lane : Lane) (r : Request) (a : Stage) : Prop :=
  pulls (r.answer script a).2.progress lane = pulls a.progress lane + 1

/-- The answers to some requests, and what they leave. -/
def serve (script : Script) : List Request → Stage → List (Except Fault Answer) × Stage
  | [], a => ([], a)
  | r :: rest, a =>
    let first := r.answer script a
    let later := serve script rest first.2
    (first.1 :: later.1, later.2)

/-- A list without the items at some positions. -/
def kept {α : Type} (deleted : Nat → Bool) : List α → List α
  | [] => []
  | x :: xs =>
    let rest := kept (fun i => deleted (i + 1)) xs
    if deleted 0 then rest else x :: rest

theorem serve_cons (script : Script) (r : Request) (rest : List Request) (a : Stage) :
    serve script (r :: rest) a =
      ((r.answer script a).1 :: (serve script rest (r.answer script a).2).1, (serve script rest (r.answer script a).2).2) :=
  rfl

theorem kept_cons {α : Type} (deleted : Nat → Bool) (x : α) (xs : List α) :
    kept deleted (x :: xs) =
      if deleted 0 then kept (fun i => deleted (i + 1)) xs else x :: kept (fun i => deleted (i + 1)) xs := rfl

/-! ### One request -/

variable {script : Script} {setup : Setup} {usesDirect : Bool} {a b : Stage} {r : Request} {lane : Lane}

theorem routed_bringing (routed : Routed usesDirect script a) (reading : Except Fault Value) :
    Routed usesDirect (bringing script reading) a := by
  refine ⟨routed.metered, ?_⟩
  intro direct
  show (script.percents.map _).isSome
  rw [Option.isSome_map]
  exact routed.measured direct

theorem routed_request (routed : Routed usesDirect script a) (r : Request) :
    Routed usesDirect script (r.answer script a).2 := by
  have after := routed_answer (routed_bringing routed r.reading) r.call
  exact ⟨after.metered, routed.measured⟩

theorem percent_bringing (measured : script.percents.isSome) (i : Nat) :
    (bringing script r.reading).percent i = r.percent := by
  obtain ⟨percents, given⟩ := Option.isSome_iff_exists.mp measured
  unfold Script.percent bringing
  rw [given]
  rfl

section
variable {σ : Type} {accept : Judgement σ} {threshold now : Value} {readings : Nat → Except Fault σ}
  {store : Store Value σ} {p q : Nat}

private theorem taken_of_vain
    (vain : (∃ e, readings p = .error e) ∨ ∃ sample, readings p = .ok sample ∧ accept sample = .ok false) :
    taken accept threshold now readings store p = none := by
  unfold taken
  rcases vain with ⟨e, failed⟩ | ⟨sample, brought, rejected⟩
  · rw [failed]
    cases store.due threshold now with
    | error e => rfl
    | ok due => cases due <;> rfl
  · rw [brought]
    cases store.due threshold now with
    | error e => rfl
    | ok due =>
      cases due with
      | false => rfl
      | true =>
        dsimp only
        rw [rejected]

private theorem refreshed_of_readings (same : readings p = readings q) :
    (refreshed accept threshold now readings store p).1 = (refreshed accept threshold now readings store q).1 ∧
      (refreshed accept threshold now readings store p).2.1 =
        (refreshed accept threshold now readings store q).2.1 := by
  unfold refreshed
  cases store.due threshold now with
  | error e => exact ⟨rfl, rfl⟩
  | ok due =>
    cases due with
    | false => exact ⟨rfl, rfl⟩
    | true =>
      rw [same]
      exact ⟨rfl, rfl⟩

private theorem polled_of_readings {hold : Value} {meter : Meter Value} {readings : Nat → Except Fault (Option Float)}
    (same : readings p = readings q) :
    (polled hold now readings meter p).1 = (polled hold now readings meter q).1 ∧
      (polled hold now readings meter p).2.1 = (polled hold now readings meter q).2.1 := by
  unfold polled
  cases meter.due hold now with
  | error e => exact ⟨rfl, rfl⟩
  | ok due =>
    cases due with
    | false => exact ⟨rfl, rfl⟩
    | true =>
      rw [same]
      exact ⟨rfl, rfl⟩

end

private theorem tickLoad_of_sampler (reading : Except Fault Value) (now : Value) (sampler : Sampler Value) (p q : Progress) :
    let whole := Stage.answer (bringing script reading) ⟨.systemTickLoad, now⟩
    (whole ⟨sampler, p⟩).1 = (whole ⟨sampler, q⟩).1 ∧ (whole ⟨sampler, p⟩).2.sampler = (whole ⟨sampler, q⟩).2.sampler := by
  obtain ⟨pair, store⟩ := @refreshed_of_readings _ Sampler.acceptRow sampler.threshold now
    (bringing script reading).row sampler.system p.rows q.rows rfl
  dsimp only
  rw [Stage.answer_systemTickLoad, Stage.answer_systemTickLoad]
  dsimp only
  rw [pair, store]
  exact ⟨rfl, rfl⟩

/-- What a request answers and leaves of the sampler depends on the sampler alone, however far the source has come. -/
theorem answer_of_sampler (routed : Routed usesDirect script a) (same : a.sampler = b.sampler) (r : Request) :
    (r.answer script a).1 = (r.answer script b).1 ∧ (r.answer script a).2.sampler = (r.answer script b).2.sampler := by
  obtain ⟨sampler, p⟩ := a
  obtain ⟨sampler', q⟩ := b
  obtain rfl : sampler = sampler' := same
  obtain ⟨⟨query, now⟩, reading⟩ := r
  have first := routed_bringing routed reading
  have second : Routed usesDirect (bringing script reading) ⟨sampler, q⟩ := ⟨first.metered, first.measured⟩
  unfold Request.answer
  dsimp only
  cases query with
  | systemTicks =>
    rw [Stage.answer_systemTicks, Stage.answer_systemTicks]
    exact ⟨rfl, rfl⟩
  | processorTicks =>
    rw [Stage.answer_processorTicks, Stage.answer_processorTicks]
    exact ⟨rfl, rfl⟩
  | averages count =>
    rw [Stage.answer_averages, Stage.answer_averages]
    exact ⟨rfl, rfl⟩
  | uptime =>
    rw [Stage.answer_uptime, Stage.answer_uptime]
    exact ⟨rfl, rfl⟩
  | systemTickLoad => exact tickLoad_of_sampler reading now sampler p q
  | processorLoads =>
    obtain ⟨pair, store⟩ := @refreshed_of_readings _ Sampler.acceptMatrix sampler.threshold now
      ((bringing script reading).matrix sampler.cores) sampler.processors p.matrices q.matrices rfl
    rw [Stage.answer_processorLoads, Stage.answer_processorLoads]
    dsimp only
    rw [pair, store]
    exact ⟨rfl, rfl⟩
  | systemLoad =>
    rcases answer_systemLoad_cases first now with ⟨_, unused, ticks⟩ | ⟨direct, meter, used, polls⟩
    · rw [ticks, @Stage.answer_systemLoad_of_ticks _ ⟨sampler, q⟩ now unused]
      exact tickLoad_of_sampler reading now sampler p q
    · have measured := first.measured direct
      obtain ⟨value, left⟩ := @polled_of_readings now p.percents q.percents sampler.hold meter
        (bringing script reading).percent ((percent_bringing (routed.measured direct) _).trans
          (percent_bringing (r := ⟨⟨.systemLoad, now⟩, reading⟩) (routed.measured direct) _).symm)
      rw [polls, @Stage.answer_systemLoad_of_meter _ ⟨sampler, q⟩ now meter used measured]
      dsimp only
      rw [value, left]
      exact ⟨rfl, rfl⟩

private theorem acceptMatrix_of_zero {rows : List Snapshot} (zero : ∀ row ∈ rows, row = .zero) :
    Sampler.acceptMatrix rows = .ok false := by
  have unusable : Sampler.isUsable rows = false := by
    apply List.any_eq_false.mpr
    intro row member
    rw [zero row member]
    decide
  exact congrArg Except.ok unusable

private theorem polled_of_error {hold now : Value} {readings : Nat → Except Fault (Option Float)} {meter : Meter Value}
    {p : Nat} {e : Fault} (failed : readings p = .error e) : (polled hold now readings meter p).2.1 = meter := by
  unfold polled
  rw [failed]
  cases meter.due hold now with
  | error e => rfl
  | ok due =>
    cases due with
    | false => rfl
    | true => exact Meter.query_error e

/-- A request in vain leaves the sampler as it is. -/
theorem sampler_of_vain (routed : Routed usesDirect script a) (vain : r.InVain usesDirect a.sampler.cores) :
    (r.answer script a).2.sampler = a.sampler := by
  have brought := routed_bringing routed r.reading
  unfold Request.InVain Request.Fails Request.IsZero at vain
  unfold Request.answer
  cases asked : figureOf usesDirect r.call.query with
  | none => exact sampler_of_no_figure asked
  | some lane =>
    rw [laneOf_of_figure asked] at vain
    cases lane with
    | system =>
      have untaken : taken Sampler.acceptRow a.sampler.threshold r.call.now (bringing script r.reading).row
          a.sampler.system a.progress.rows = none :=
        taken_of_vain (vain.imp id fun zero => ⟨.zero, zero, rfl⟩)
      rw [answer_of_system_figure brought asked, Stage.answer_systemTickLoad]
      dsimp only
      rw [store_of_untaken untaken]
    | processors =>
      have untaken : taken Sampler.acceptMatrix a.sampler.threshold r.call.now
          ((bringing script r.reading).matrix a.sampler.cores) a.sampler.processors a.progress.matrices = none :=
        taken_of_vain (vain.imp id fun ⟨rows, found, zero⟩ => ⟨rows, found, acceptMatrix_of_zero zero⟩)
      rw [answer_of_processor_figures asked, Stage.answer_processorLoads]
      dsimp only
      rw [store_of_untaken untaken]
    | direct =>
      obtain ⟨rfl, meter, used, same⟩ := answer_of_direct_figure brought asked
      rcases vain with ⟨e, failed⟩ | zero
      · have left := @polled_of_error a.sampler.hold r.call.now (bringing script r.reading).percent meter
          a.progress.percents e ((percent_bringing (routed.measured rfl) _).trans failed)
        rw [same]
        dsimp only
        rw [left, ← used]
      · cases zero

/-! ### Runs without some requests -/

theorem cores_request (routed : Routed usesDirect script a) (r : Request) :
    (r.answer script a).2.sampler.cores = a.sampler.cores :=
  (keeps_answer (routed_bringing routed r.reading) r.call).cores

/-- A run without some of its vain requests answers the others in the same way and leaves the same sampler. -/
theorem serve_kept (left : Routed usesDirect script a) (right : Routed usesDirect script b)
    (same : a.sampler = b.sampler) {requests : List Request} {deleted : Nat → Bool}
    (vain : ∀ i r, requests[i]? = some r → deleted i = true → r.InVain usesDirect a.sampler.cores) :
    kept deleted (serve script requests a).1 = (serve script (kept deleted requests) b).1 ∧
      (serve script requests a).2.sampler = (serve script (kept deleted requests) b).2.sampler := by
  induction requests generalizing a b deleted with
  | nil => exact ⟨rfl, same⟩
  | cons r rest ih =>
    have later : ∀ i r', rest[i]? = some r' → deleted (i + 1) = true →
        r'.InVain usesDirect (r.answer script a).2.sampler.cores := by
      intro i r' found gone
      rw [cores_request left]
      exact vain (i + 1) r' (by rw [List.getElem?_cons_succ]; exact found) gone
    rw [serve_cons, kept_cons, kept_cons]
    by_cases gone : deleted 0 = true
    · -- The left run has one pull more behind it, so the two agree in the sampler but not in the progress of the source.
      have unchanged := sampler_of_vain left (vain 0 r rfl gone)
      rw [if_pos gone, if_pos gone]
      exact ih (routed_request left r) right (unchanged.trans same) later
    · obtain ⟨answers, sampler⟩ := answer_of_sampler left same r
      obtain ⟨others, final⟩ := ih (routed_request left r) (routed_request right r) sampler later
      rw [if_neg gone, if_neg gone, serve_cons, answers, others]
      exact ⟨rfl, final⟩

/-! ### After a pull in vain -/

/-- A clock: one that shows doubles, or one whose readings can be subtracted exactly. -/
inductive Timepiece
  | doubles
  | exact (readings : Set Value) (isExact : Exact readings)

/-- Whether a clock shows a reading, which is a number. -/
def Timepiece.Shows : Timepiece → Value → Prop
  | doubles, v => ∃ x, v = .float x
  | exact readings _, v => v ∈ readings ∧ v.rational?.isSome

/-- Whether a store of a lane pulls when it is asked at a clock reading. -/
def lateAt (s : Sampler Value) (now : Value) : Lane → Except Fault Bool
  | .system => s.system.due s.threshold now
  | .processors => s.processors.due s.threshold now
  | .direct => (s.meter.map fun meter => meter.due s.hold now).getD (.ok false)

def refreshedOf (s : Sampler Value) : Lane → Option Value
  | .system => s.system.refreshed
  | .processors => s.processors.refreshed
  | .direct => none

theorem pulls_refreshed_iff {σ : Type} {accept : Judgement σ} {threshold now : Value}
    {readings : Nat → Except Fault σ} {store : Store Value σ} {p : Nat} :
    (refreshed accept threshold now readings store p).2.2 = p + 1 ↔ store.due threshold now = .ok true := by
  unfold refreshed
  cases store.due threshold now with
  | error e => simp
  | ok due => cases due <;> simp

/-- A request for a figure of a lane over ticks makes a pull exactly if the store is late. -/
theorem pulls_iff (routed : Routed usesDirect script a) (asks : r.Asks usesDirect lane) (ticks : lane ≠ .direct) :
    r.Pulls script lane a ↔ lateAt a.sampler r.call.now lane = .ok true := by
  have brought := routed_bringing routed r.reading
  unfold Request.Pulls Request.answer
  cases lane with
  | system =>
    rw [answer_of_system_figure brought asks, Stage.answer_systemTickLoad]
    exact pulls_refreshed_iff
  | processors =>
    rw [answer_of_processor_figures asks, Stage.answer_processorLoads]
    exact pulls_refreshed_iff
  | direct => exact absurd rfl ticks

section
variable {piece : Timepiece} {limit now later since : Value}

theorem exceeds_of_later (current : piece.Shows now) (next : piece.Shows later) (past : piece.Shows since)
    (after : now.isLess later = .ok true) (exceeded : Elapsed.exceeds limit now since = .ok true) :
    Elapsed.exceeds limit later since = .ok true := by
  cases piece with
  | doubles =>
    obtain ⟨x, rfl⟩ := current
    obtain ⟨y, rfl⟩ := next
    obtain ⟨z, rfl⟩ := past
    exact exceeds_of_later_double after exceeded
  | exact readings isExact =>
    exact exceeds_of_later_exact isExact current.1 next.1 past.1 current.2 next.2 after exceeded

/-- A store that is late at a clock reading is so at every later one, as long as it takes no sample over. -/
theorem due_of_later {σ : Type} {store : Store Value σ} (current : piece.Shows now)
    (next : piece.Shows later) (past : ∀ t ∈ store.refreshed, piece.Shows t) (after : now.isLess later = .ok true)
    (late : store.due limit now = .ok true) : store.due limit later = .ok true := by
  unfold Store.due refreshDue at late ⊢
  cases refreshed : store.refreshed with
  | none => rfl
  | some t =>
    rw [refreshed] at late
    exact exceeds_of_later current next (past t refreshed) after late

end

private theorem refreshedOf_of_holding (same : holding lane a = holding lane b) :
    refreshedOf a.sampler lane = refreshedOf b.sampler lane := by
  cases lane with
  | system => exact congrArg Store.refreshed (Holding.rows.inj same).1
  | processors => exact congrArg Store.refreshed (Holding.matrices.inj same).1
  | direct => rfl

private theorem refreshed_or_now {σ : Type} {accept : Judgement σ} {threshold now : Value}
    {readings : Nat → Except Fault σ} {store : Store Value σ} {p : Nat} :
    (refreshed accept threshold now readings store p).2.1.refreshed = store.refreshed ∨
      (refreshed accept threshold now readings store p).2.1.refreshed = some now := by
  cases took : taken accept threshold now readings store p with
  | none => exact .inl (congrArg Store.refreshed (store_of_untaken took))
  | some sample =>
    rw [(refreshed_of_taken took).2]
    exact .inr rfl

theorem refreshedOf_answer (routed : Routed usesDirect script a) (call : Call) :
    refreshedOf (a.answer script call).2.sampler lane = refreshedOf a.sampler lane ∨
      refreshedOf (a.answer script call).2.sampler lane = some call.now := by
  by_cases own : laneOf usesDirect call.query = some lane
  · cases asked : figureOf usesDirect call.query with
    | none =>
      left
      rw [sampler_of_no_figure asked]
    | some figure =>
      obtain rfl : figure = lane := Option.some.inj ((laneOf_of_figure asked).symm.trans own)
      cases figure with
      | system =>
        rw [answer_of_system_figure routed asked, Stage.answer_systemTickLoad]
        exact refreshed_or_now
      | processors =>
        rw [answer_of_processor_figures asked, Stage.answer_processorLoads]
        exact refreshed_or_now
      | direct => exact .inl rfl
  · exact .inl (refreshedOf_of_holding (holding_of_other routed own))

def Dated (piece : Timepiece) (s : Sampler Value) : Prop := ∀ lane, ∀ t ∈ refreshedOf s lane, piece.Shows t

variable {piece : Timepiece}

theorem dated_request (routed : Routed usesDirect script a) (dated : Dated piece a.sampler)
    (shows : piece.Shows r.call.now) : Dated piece (r.answer script a).2.sampler := by
  intro lane t known
  have brought := routed_bringing routed r.reading
  have cases : refreshedOf (r.answer script a).2.sampler lane = refreshedOf a.sampler lane ∨
    refreshedOf (r.answer script a).2.sampler lane = some r.call.now := refreshedOf_answer brought r.call
  rcases cases with same | now
  · rw [same] at known
    exact dated lane t known
  · rw [now] at known
    cases known
    exact shows

theorem dated_begin (ready : begin script setup = .ok a) (shows : piece.Shows setup.now) : Dated piece a.sampler := by
  obtain ⟨identity, row, rows, meter, _, _, _, _, rfl⟩ := begin_eq_ok_iff.mp ready
  intro lane t known
  cases lane with
  | system =>
    unfold refreshedOf at known
    rw [Script.system_firstStage] at known
    split_ifs at known
    · cases known
      exact shows
    · cases known
  | processors =>
    unfold refreshedOf at known
    rw [Script.processors_firstStage] at known
    split_ifs at known
    · cases known
      exact shows
    · cases known
  | direct => cases known

theorem served (routed : Routed usesDirect script a) (requests : List Request) :
    Routed usesDirect script (serve script requests a).2 ∧
      (serve script requests a).2.sampler.cores = a.sampler.cores := by
  induction requests generalizing a with
  | nil => exact ⟨routed, rfl⟩
  | cons r rest ih =>
    have ⟨left, cores⟩ := ih (routed_request routed r)
    exact ⟨left, cores.trans (cores_request routed r)⟩

theorem dated_serve (routed : Routed usesDirect script a) (dated : Dated piece a.sampler) {requests : List Request}
    (shows : ∀ r ∈ requests, piece.Shows r.call.now) : Dated piece (serve script requests a).2.sampler := by
  induction requests generalizing a with
  | nil => exact dated
  | cons r rest ih =>
    have ⟨current, later⟩ := List.forall_mem_cons.mp shows
    exact ih (routed_request routed r) (dated_request routed dated current) later

theorem lateAt_of_others (routed : Routed usesDirect script a) (ticks : lane ≠ .direct) (now : Value) {between : List Request}
    (others : ∀ r ∈ between, laneOf usesDirect r.call.query ≠ some lane) :
    lateAt (serve script between a).2.sampler now lane = lateAt a.sampler now lane := by
  induction between generalizing a with
  | nil => rfl
  | cons r rest ih =>
    have ⟨here, later⟩ := List.forall_mem_cons.mp others
    have brought := routed_bringing routed r.reading
    have same : holding lane (r.answer script a).2 = holding lane a := holding_of_other brought here
    have threshold : (r.answer script a).2.sampler.threshold = a.sampler.threshold := (keeps_answer brought r.call).threshold
    have step : lateAt (r.answer script a).2.sampler now lane = lateAt a.sampler now lane := by
      unfold lateAt
      cases lane with
      | system =>
        dsimp only
        rw [threshold, (Holding.rows.inj same).1]
      | processors =>
        dsimp only
        rw [threshold, (Holding.matrices.inj same).1]
      | direct => exact absurd rfl ticks
    exact (ih (routed_request routed r) later).trans step

theorem lateAt_of_later {s : Sampler Value} {now later : Value} (ticks : lane ≠ .direct) (dated : Dated piece s)
    (current : piece.Shows now) (next : piece.Shows later) (after : now.isLess later = .ok true)
    (late : lateAt s now lane = .ok true) : lateAt s later lane = .ok true := by
  cases lane with
  | system => exact due_of_later current next (dated .system) after late
  | processors => exact due_of_later current next (dated .processors) after late
  | direct => exact absurd rfl ticks

theorem refreshed_of_rejected {σ : Type} {accept : Judgement σ} {threshold now : Value}
    {readings : Nat → Except Fault σ} {store : Store Value σ} {p : Nat} {sample : σ}
    (late : store.due threshold now = .ok true) (brought : readings p = .ok sample)
    (rejected : accept sample = .ok false) :
    (refreshed accept threshold now readings store p).1 = .ok store.pair := by
  unfold refreshed
  rw [late, brought]
  dsimp only
  rw [Store.query_of_reject late rejected]

theorem answer_of_zero (routed : Routed usesDirect script a) (asks : r.Asks usesDirect lane)
    (zero : r.IsZero usesDirect a.sampler.cores) (late : lateAt a.sampler r.call.now lane = .ok true) :
    (r.answer script a).1 = report a.sampler lane := by
  have brought := routed_bringing routed r.reading
  unfold Request.IsZero at zero
  rw [laneOf_of_figure asks] at zero
  unfold Request.answer
  cases lane with
  | system =>
    have pair := @refreshed_of_rejected _ Sampler.acceptRow a.sampler.threshold r.call.now
      (bringing script r.reading).row a.sampler.system a.progress.rows .zero late zero rfl
    rw [answer_of_system_figure brought asks, Stage.answer_systemTickLoad]
    dsimp only
    rw [pair]
    rfl
  | processors =>
    obtain ⟨rows, found, zeros⟩ := zero
    have pair := @refreshed_of_rejected _ Sampler.acceptMatrix a.sampler.threshold r.call.now
      ((bringing script r.reading).matrix a.sampler.cores) a.sampler.processors a.progress.matrices rows late found
      (acceptMatrix_of_zero zeros)
    rw [answer_of_processor_figures asks, Stage.answer_processorLoads]
    dsimp only
    rw [pair]
    rfl
  | direct => cases zero

/-- A new sampler serves requests, each labelled with what the source would bring to it. Some of them are in vain: the
    pull fails at the source or because what it brings cannot be read, or it brings zeros alone. A run without any of
    these answers all other requests in the same way and leaves the same sampler. By a clock of doubles or an exact one,
    a request in vain that made a pull of ticks is answered from the two stored generations, if its sample was rejected;
    and whatever is asked of the other lanes in between, the next request of its lane at any later clock reading pulls
    again. -/
theorem vain_requests_are_invisible (ready : begin script setup = .ok a) (requests : List Request) :
    (∀ deleted : Nat → Bool,
      (∀ i r, requests[i]? = some r → deleted i = true → r.InVain (script.usesDirect setup) script.cores) →
        kept deleted (serve script requests a).1 = (serve script (kept deleted requests) a).1 ∧
          (serve script requests a).2.sampler = (serve script (kept deleted requests) a).2.sampler) ∧
    ∀ piece : Timepiece, piece.Shows setup.now → (∀ r ∈ requests, piece.Shows r.call.now) →
      let b := (serve script requests a).2
      ∀ lane ≠ .direct, ∀ r : Request, r.Asks (script.usesDirect setup) lane → piece.Shows r.call.now →
        r.InVain (script.usesDirect setup) script.cores → r.Pulls script lane b →
          (r.IsZero (script.usesDirect setup) script.cores → (r.answer script b).1 = report b.sampler lane) ∧
          ∀ between : List Request, (∀ q ∈ between, laneOf (script.usesDirect setup) q.call.query ≠ some lane) →
            ∀ next : Request, next.Asks (script.usesDirect setup) lane → piece.Shows next.call.now →
              r.call.now.isLess next.call.now = .ok true →
                next.Pulls script lane (serve script between (r.answer script b).2).2 := by
  have routed := routed_begin ready
  have cores : a.sampler.cores = script.cores := by
    obtain ⟨identity, row, rows, meter, _, _, _, _, rfl⟩ := begin_eq_ok_iff.mp ready
    rfl
  refine ⟨?_, ?_⟩
  · intro deleted vain
    rw [← cores] at vain
    exact serve_kept routed routed rfl vain
  · intro piece opened shows b lane ticks r asks current vain pulled
    obtain ⟨reached, sameCores⟩ := served routed requests
    have dated : Dated piece b.sampler := dated_serve routed (dated_begin ready opened) shows
    have late := (pulls_iff reached asks ticks).mp pulled
    rw [← cores, ← sameCores] at vain ⊢
    refine ⟨fun zero => answer_of_zero reached asks zero late, ?_⟩
    intro between others next asksNext shown after
    have unchanged : (r.answer script b).2.sampler = b.sampler := sampler_of_vain reached vain
    have left := routed_request reached r
    apply (pulls_iff (served left between).1 asksNext ticks).mpr
    rw [lateAt_of_others left ticks _ others, unchanged]
    exact lateAt_of_later ticks dated current shown after late

/-! A sampler whose source fails, brings zeros and then rows, at a clock of doubles. -/

def wakeful : Setup := ⟨.float 950.0, .float 200.0, true, .float 0.0⟩

def loadAt (now : Float) (reading : Except Fault Value) : Request := ⟨⟨.systemTickLoad, .float now⟩, reading⟩

def failing : Request := loadAt 1000.0 (.error (.reported .runtime "gone"))

def blank : Request := loadAt 1000.0 (.ok (.list [.int 0]))

def counted : Request := loadAt 1001.0 (.ok (.list [.int 2]))

theorem vain_requests_are_invisible_until_one_counts : ∃ a, begin counting wakeful = .ok a ∧
    (serve counting [failing, blank, counted] a).2.sampler = (serve counting [counted] a).2.sampler ∧
    (blank.answer counting (serve counting [failing] a).2).1 = report (serve counting [failing] a).2.sampler .system ∧
    counted.Pulls counting .system (blank.answer counting (serve counting [failing] a).2).2 := by
  obtain ⟨a, ready, pulled⟩ : ∃ a, begin counting wakeful = .ok a ∧
      blank.Pulls counting .system (serve counting [failing] a).2 := by
    refine ⟨_, (begin_eq_opened wakeful).trans rfl, ?_⟩
    unfold Request.Pulls
    decide +kernel
  have fails : failing.InVain (counting.usesDirect wakeful) counting.cores := .inl ⟨_, rfl⟩
  have zero : blank.IsZero (counting.usesDirect wakeful) counting.cores := rfl
  obtain ⟨without, _⟩ := vain_requests_are_invisible ready [failing, blank, counted]
  obtain ⟨_, again⟩ := vain_requests_are_invisible ready [failing]
  have early := without (fun i => i < 2) (by
    rintro (_ | _ | _ | i) r found gone
    · cases found
      exact fails
    · cases found
      exact .inr zero
    · cases gone
    · cases found)
  have shows : ∀ r ∈ [failing], Timepiece.doubles.Shows r.call.now := by
    intro r member
    rw [List.mem_singleton.mp member]
    exact ⟨_, rfl⟩
  have later : (Value.float 1000.0).isLess (.float 1001.0) = .ok true :=
    congrArg Except.ok (by decide +kernel : (Number.float 1000.0).less (.float 1001.0) = true)
  obtain ⟨answered, pulls⟩ := again .doubles ⟨_, rfl⟩ shows .system (by decide) blank rfl ⟨_, rfl⟩ (.inr zero) pulled
  exact ⟨a, ready, early.2, answered zero, pulls [] (by simp) counted rfl ⟨_, rfl⟩ later⟩

end CpuLoad.VainRequests
