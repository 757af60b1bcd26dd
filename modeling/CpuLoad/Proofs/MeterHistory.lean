import CpuLoad.Proofs.ExactClock
import CpuLoad.Proofs.Outcome
import CpuLoad.Proofs.UnitInterval

/-!
What a meter holds after a run of loads, told from the polls that came back. A poll comes back if it brings a percentage
or says that there is none; one that fails is made as well, but leaves nothing behind. Loads are made at exact clock
readings that may go back. A meter polls exactly if it has been held for the limit (`outcome_program`), its value is that
of the newest percentage that came back, and any two polls that came back are the limit apart (`follows_after`).
-/
namespace CpuLoad.MeterHistory
open CpuLoad.Channel CpuLoad.DoubleOrder CpuLoad.ExactClock CpuLoad.Outcome CpuLoad.UnitInterval

structure Load where
  now : Value
  reading : Except Fault Value

def Load.percent (load : Load) : Except Fault (Option Float) := load.reading.bind Meter.percentOf

/-- A poll that came back. -/
structure Poll where
  time : Value
  percent : Option Float

/-- A meter, the number of its polls, and those that came back, the newest first. -/
structure Trail where
  meter : Meter Value
  polls : Nat
  returned : List Poll

def poll {ρ : Type} (reading : Except Fault Value) : ChannelM (StateM Nat) ρ Value := do
  ExceptT.lift (StateT.lift (modify (· + 1)))
  MonadExcept.ofExcept reading

/-- A load as the program asks it of a meter. The world counts the polls. -/
def Load.program (hold : Value) (load : Load) : ChannelM (StateM Nat) (Meter Value) Float := do
  measure hold load.now (← get) (fun reading meter => meter.query hold load.now reading) (poll load.reading)

/-- A new meter with its first poll. -/
def opened (first : Load) : Except Fault Trail := do
  let (meter, _, polls) := outcome (startMeter first.now (poll first.reading)) () 0
  return ⟨← meter, polls, [⟨first.now, ← first.percent⟩]⟩

/-- The trail after a load: a poll came back if one was made and brought a percentage or none. -/
def Trail.follow (hold : Value) (t : Trail) (load : Load) : Trail :=
  let (_, meter, polls) := outcome (load.program hold) t.meter t.polls
  match load.percent with
  | .ok percent => ⟨meter, polls, if t.polls < polls then ⟨load.now, percent⟩ :: t.returned else t.returned⟩
  | .error _ => ⟨meter, polls, t.returned⟩

def Trail.after (hold : Value) (t : Trail) (loads : List Load) : Trail := loads.foldl (Trail.follow hold) t

def latest (polls : List Poll) : Option Float := polls.findSome? fun p => Meter.available p.percent

/-- The share that a percentage is brought to: its hundredth, or the end of the unit interval on that side. -/
structure Clamps (percent share : Float) : Prop where
  inUnit : InUnit share
  inside : InUnit (percent / 100.0) → share = percent / 100.0
  below : percent / 100.0 < 0.0 → share = 0.0
  above : 1.0 < percent / 100.0 → share = 1.0

theorem latest_isNumber {polls : List Poll} {percent : Float} (found : latest polls = some percent) :
    percent.isNaN = false := by
  obtain ⟨p, _, available⟩ := List.exists_of_findSome?_eq_some found
  have isNumber := (Option.filter_eq_some_iff.mp available).2
  simpa using isNumber

theorem clamps_unitShare {percent : Float} (isNumber : percent.isNaN = false) : Clamps percent (unitShare percent) := by
  have hundred : Binary64.parts 100.0 = .finite false (25 * 2 ^ 48) (-46) := by decide
  have quotient : (percent / 100.0).isNaN = false := isNaN_div isNumber (by decide) hundred
  refine ⟨inUnit_unitShare isNumber, ?_, ?_, ?_⟩
  · rintro ⟨low, high⟩
    rw [le_iff rfl quotient] at low
    rw [le_iff quotient rfl] at high
    have notBelow : ¬ percent / 100.0 < 0.0 := by rw [lt_iff quotient rfl]; omega
    have notAbove : ¬ 1.0 < percent / 100.0 := by rw [lt_iff rfl quotient]; omega
    unfold unitShare
    dsimp only
    rw [if_neg notBelow, if_neg notAbove]
  · intro low
    unfold unitShare
    dsimp only
    rw [if_pos low, if_neg (by decide)]
  · intro high
    have notBelow : ¬ percent / 100.0 < 0.0 := by
      rw [lt_iff rfl quotient, rank_one] at high
      rw [lt_iff quotient rfl, rank_zero]
      omega
    unfold unitShare
    dsimp only
    rw [if_neg notBelow, if_pos high]

/-! ### One load -/

variable {hold : Value} {limit : WithTop Rat} {readings : Set Value} {t : Trail} {load : Load}

private theorem outcome_poll {ρ : Type} (reading : Except Fault Value) (s : ρ) (n : Nat) :
    outcome (poll reading) s n = (reading, s, n + 1) := by
  cases reading <;> rfl

/-- A load polls exactly if the meter is due, and takes what the poll brings. -/
theorem outcome_program (m : Meter Value) (n : Nat) :
    outcome (load.program hold) m n =
      match m.due hold load.now with
      | .error e => (.error e, m, n)
      | .ok false => (.ok m.value, m, n)
      | .ok true => ((m.query hold load.now load.percent).1, (m.query hold load.now load.percent).2, n + 1) := by
  unfold Load.program Load.percent
  rw [outcome_bind, outcome_get, andThen_ok, outcome_measure, outcome_poll]
  cases m.due hold load.now with
  | error e => rfl
  | ok due =>
    cases due with
    | false => rfl
    | true => cases load.reading <;> rfl

def Trail.gap (t : Trail) (load : Load) : Rat := number load.now - number t.meter.polled

/-- A load is answered from the meter, makes a poll that comes back, or makes one that fails. -/
theorem follow_cases (length : limit? hold = some limit) (exact : Exact readings) (past : t.meter.polled ∈ readings)
    (current : load.now ∈ readings) :
    ((t.gap load : WithTop Rat) < limit ∧
      outcome (load.program hold) t.meter t.polls = (.ok t.meter.value, t.meter, t.polls) ∧ t.follow hold load = t) ∨
    (limit ≤ (t.gap load : WithTop Rat) ∧ ∃ percent, load.percent = .ok percent ∧
      outcome (load.program hold) t.meter t.polls =
        (.ok (Meter.valueAfter t.meter.value percent), ⟨Meter.valueAfter t.meter.value percent, load.now⟩, t.polls + 1) ∧
      t.follow hold load =
        ⟨⟨Meter.valueAfter t.meter.value percent, load.now⟩, t.polls + 1, ⟨load.now, percent⟩ :: t.returned⟩) ∨
    (limit ≤ (t.gap load : WithTop Rat) ∧ ∃ e, load.percent = .error e ∧
      outcome (load.program hold) t.meter t.polls = (.error e, t.meter, t.polls + 1) ∧
      t.follow hold load = ⟨t.meter, t.polls + 1, t.returned⟩) := by
  obtain ⟨held, within, shorter⟩ := isWithin_iff exact length current past
  have due : t.meter.due hold load.now = .ok !held := by
    unfold Meter.due
    rw [within]
    rfl
  cases held with
  | true =>
    have result : outcome (load.program hold) t.meter t.polls = (.ok t.meter.value, t.meter, t.polls) := by
      rw [outcome_program, due]
      rfl
    refine .inl ⟨shorter.mp rfl, result, ?_⟩
    unfold Trail.follow
    rw [result]
    cases load.percent with
    | error e => rfl
    | ok percent => simp only [lt_irrefl, ↓reduceIte]
  | false =>
    have longer : limit ≤ (t.gap load : WithTop Rat) := le_of_not_gt fun contra => Bool.noConfusion (shorter.mpr contra)
    have polled : outcome (load.program hold) t.meter t.polls =
        ((t.meter.query hold load.now load.percent).1, (t.meter.query hold load.now load.percent).2, t.polls + 1) := by
      rw [outcome_program, due]
      rfl
    right
    cases read : load.percent with
    | error e =>
      have result : outcome (load.program hold) t.meter t.polls = (.error e, t.meter, t.polls + 1) := by
        rw [polled, read]
        unfold Meter.query
        rw [due]
        rfl
      refine .inr ⟨longer, e, rfl, result, ?_⟩
      unfold Trail.follow
      rw [result, read]
    | ok percent =>
      have result : outcome (load.program hold) t.meter t.polls = (.ok (Meter.valueAfter t.meter.value percent),
          ⟨Meter.valueAfter t.meter.value percent, load.now⟩, t.polls + 1) := by
        rw [polled, read, Meter.query_of_due due]
      refine .inl ⟨longer, percent, rfl, result, ?_⟩
      unfold Trail.follow
      rw [result, read]
      simp only [Nat.lt_succ_self, ↓reduceIte]

/-! ### Runs of loads -/

/-- A meter follows the polls that came back. -/
structure Follows (readings : Set Value) (limit : WithTop Rat) (t : Trail) : Prop where
  value : t.meter.value = ((latest t.returned).map unitShare).getD 0.0
  polled : t.returned.head?.map Poll.time = some t.meter.polled
  onClock : ∀ p ∈ t.returned, p.time ∈ readings
  apart : t.returned.Pairwise fun newer older => limit ≤ ((number newer.time - number older.time : Rat) : WithTop Rat)

theorem Follows.polled_mem (follows : Follows readings limit t) : t.meter.polled ∈ readings := by
  obtain ⟨newest, head, time⟩ := Option.map_eq_some_iff.mp follows.polled
  rw [← time]
  exact follows.onClock newest (List.mem_of_mem_head? head)

private theorem latest_cons (now : Value) (percent : Option Float) (polls : List Poll) (kept : Float)
    (same : kept = ((latest polls).map unitShare).getD 0.0) :
    Meter.valueAfter kept percent = ((latest (⟨now, percent⟩ :: polls)).map unitShare).getD 0.0 := by
  unfold Meter.valueAfter latest
  rw [List.findSome?_cons]
  cases Meter.available percent with
  | none => exact same
  | some x => rfl

/-- Every two polls that came back are the limit apart, also if others came back between them. -/
private theorem apart_cons (positive : 0 < limit) (follows : Follows readings limit t) (now : Value)
    (longer : limit ≤ ((number now - number t.meter.polled : Rat) : WithTop Rat)) :
    ∀ p ∈ t.returned, limit ≤ ((number now - number p.time : Rat) : WithTop Rat) := by
  intro p member
  obtain ⟨newest, head, time⟩ := Option.map_eq_some_iff.mp follows.polled
  obtain ⟨earlier, known⟩ := List.head?_eq_some_iff.mp head
  have apart := follows.apart
  rw [known] at member apart
  rw [← time] at longer
  rcases List.mem_cons.mp member with rfl | older
  · exact longer
  · have before := List.rel_of_pairwise_cons apart older
    have forward : 0 < number now - number newest.time := by exact_mod_cast lt_of_lt_of_le positive longer
    have total : number newest.time - number p.time ≤ number now - number p.time := by linarith
    exact le_trans before (WithTop.coe_le_coe.mpr total)

theorem follows_follow (length : limit? hold = some limit) (positive : 0 < limit) (exact : Exact readings)
    (follows : Follows readings limit t) (current : load.now ∈ readings) :
    Follows readings limit (t.follow hold load) := by
  rcases follow_cases length exact follows.polled_mem current with
    ⟨_, _, same⟩ | ⟨longer, percent, _, _, same⟩ | ⟨_, e, _, _, same⟩
  · rw [same]
    exact follows
  · rw [same]
    refine ⟨latest_cons load.now percent t.returned _ follows.value, rfl, ?_, ?_⟩
    · exact List.forall_mem_cons.mpr ⟨current, follows.onClock⟩
    · exact List.pairwise_cons.mpr ⟨apart_cons positive follows load.now longer, follows.apart⟩
  · rw [same]
    exact ⟨follows.value, follows.polled, follows.onClock, follows.apart⟩

theorem follows_opened {first : Load} (ready : opened first = .ok t) (current : first.now ∈ readings) :
    Follows readings limit t := by
  have primed : outcome (startMeter first.now (poll first.reading)) () 0 =
      (first.percent.map fun reading => Meter.start first.now reading, (), 1) := by
    unfold startMeter Load.percent
    rw [outcome_bind, outcome_reading, outcome_poll]
    cases first.reading with
    | error e => rfl
    | ok v =>
      show andThen (Meter.percentOf v, (), 1) _ = ((Meter.percentOf v).map _, (), 1)
      cases Meter.percentOf v <;> rfl
  unfold opened at ready
  rw [primed] at ready
  cases read : first.percent with
  | error e =>
    rw [read] at ready
    cases ready
  | ok percent =>
    rw [read] at ready
    cases ready
    refine ⟨latest_cons first.now percent [] 0.0 rfl, rfl, ?_, List.pairwise_singleton ..⟩
    intro p member
    rw [List.mem_singleton.mp member]
    exact current

theorem follows_after (length : limit? hold = some limit) (positive : 0 < limit) (exact : Exact readings)
    (follows : Follows readings limit t) {loads : List Load} (onClock : ∀ load ∈ loads, load.now ∈ readings) :
    Follows readings limit (t.after hold loads) := by
  induction loads generalizing t with
  | nil => exact follows
  | cons load loads ih =>
    have ⟨current, later⟩ := List.forall_mem_cons.mp onClock
    exact ih (follows_follow length positive exact follows current) later

/-- What one more load does to a meter that follows the polls that came back. -/
theorem load_follows (length : limit? hold = some limit) (positive : 0 < limit) (exact : Exact readings)
    (follows : Follows readings limit t) (current : load.now ∈ readings) :
    let (answer, meter, polls) := outcome (load.program hold) t.meter t.polls
    (polls = if limit ≤ (t.gap load : WithTop Rat) then t.polls + 1 else t.polls) ∧
    (polls = t.polls → meter = t.meter) ∧
    (polls = t.polls + 1 → ∀ percent, load.percent = .ok percent → meter.polled = load.now) ∧
    (∀ e, answer = .error e ↔ polls = t.polls + 1 ∧ load.percent = .error e) ∧
    (∀ e, answer = .error e → meter = t.meter) ∧
    (∀ x, answer = .ok x → x = meter.value ∧
      ((number load.now - number meter.polled : Rat) : WithTop Rat) < limit) := by
  rcases follow_cases length exact follows.polled_mem current with
    ⟨shorter, result, _⟩ | ⟨longer, percent, read, result, _⟩ | ⟨longer, e, read, result, _⟩
  · rw [result]
    refine ⟨(if_neg (not_le_of_gt shorter)).symm, fun _ => rfl, ?_, ?_, ?_, ?_⟩
    · intro contra
      omega
    · intro e
      constructor
      · rintro ⟨⟩
      · rintro ⟨contra, _⟩
        omega
    · rintro e ⟨⟩
    · rintro x ⟨⟩
      exact ⟨rfl, shorter⟩
  · rw [result]
    refine ⟨(if_pos longer).symm, ?_, fun _ _ _ => rfl, ?_, ?_, ?_⟩
    · intro contra
      omega
    · intro e
      rw [read]
      constructor
      · rintro ⟨⟩
      · rintro ⟨_, ⟨⟩⟩
    · rintro e ⟨⟩
    · rintro x ⟨⟩
      refine ⟨rfl, ?_⟩
      rw [sub_self]
      exact positive
  · rw [result]
    refine ⟨(if_pos longer).symm, fun _ => rfl, ?_, ?_, fun _ _ => rfl, ?_⟩
    · intro _ percent contra
      rw [read] at contra
      cases contra
    · intro e'
      rw [read]
      constructor
      · rintro ⟨⟩
        exact ⟨rfl, rfl⟩
      · rintro ⟨_, ⟨⟩⟩
        rfl
    · rintro x ⟨⟩

theorem Follows.inUnit (follows : Follows readings limit t) : InUnit t.meter.value := by
  rw [follows.value]
  cases found : latest t.returned with
  | none => exact ⟨by decide, by decide⟩
  | some percent => exact inUnit_unitShare (latest_isNumber found)

/-- A meter that is set up with a first poll and asked at exact clock readings in any order. A load polls once if the
    limit has passed since the last poll that came back, and else not at all. A poll that comes back sets the meter to
    the time of the load; one that fails is the load's fault and leaves the meter, and no load fails otherwise. The value
    is the share of the newest percentage that came back, zero without one, so it lies in the unit interval. A load that
    is answered gets the value and leaves the last poll within the limit. Any two polls that came back are the limit
    apart. -/
theorem meter_follows_polls (length : limit? hold = some limit) (positive : 0 < limit) (exact : Exact readings)
    {first : Load} (ready : opened first = .ok t) {loads : List Load}
    (onClock : ∀ load ∈ first :: loads, load.now ∈ readings) :
    let b := t.after hold loads
    (∀ load : Load, load.now ∈ readings →
      let (answer, meter, polls) := outcome (load.program hold) b.meter b.polls
      (polls = if limit ≤ (b.gap load : WithTop Rat) then b.polls + 1 else b.polls) ∧
      (polls = b.polls → meter = b.meter) ∧
      (polls = b.polls + 1 → ∀ percent, load.percent = .ok percent → meter.polled = load.now) ∧
      (∀ e, answer = .error e ↔ polls = b.polls + 1 ∧ load.percent = .error e) ∧
      (∀ e, answer = .error e → meter = b.meter) ∧
      (∀ x, answer = .ok x → x = meter.value ∧
        ((number load.now - number meter.polled : Rat) : WithTop Rat) < limit)) ∧
    (∀ percent, latest b.returned = some percent → Clamps percent b.meter.value) ∧
    (latest b.returned = none → b.meter.value = 0.0) ∧
    InUnit b.meter.value ∧
    b.returned.head?.map Poll.time = some b.meter.polled ∧
    b.returned.Pairwise fun newer older =>
      limit ≤ ((number newer.time - number older.time : Rat) : WithTop Rat) := by
  have ⟨current, later⟩ := List.forall_mem_cons.mp onClock
  have follows := follows_after length positive exact (follows_opened ready current) later
  refine ⟨?_, ?_, ?_, follows.inUnit, follows.polled, follows.apart⟩
  · intro load onTime
    exact load_follows length positive exact follows onTime
  · intro percent found
    rw [follows.value, found]
    exact clamps_unitShare (latest_isNumber found)
  · intro none
    rw [follows.value, none]
    rfl

/-! A meter that is primed at half load, polled in vain, and then asked by a clock that goes back. -/

def primer : Load := ⟨.int 0, .ok (.float 50.0)⟩

def visits : List Load :=
  [⟨.int 250, .ok .null⟩, ⟨.int 100, .ok (.float 80.0)⟩, ⟨.int 450, .error (.reported .runtime "gone")⟩]

theorem meter_follows_polls_back_in_time : ∃ t, opened primer = .ok t ∧
    (t.after (.int 200) visits).meter.value = 0.5 ∧ (t.after (.int 200) visits).meter.polled = .int 250 ∧
    (t.after (.int 200) visits).polls = 3 ∧
    (outcome ((⟨.int 449, .ok (.float 20.0)⟩ : Load).program (.int 200)) (t.after (.int 200) visits).meter 3).2.2 = 3 ∧
    (outcome ((⟨.int 450, .ok (.float 20.0)⟩ : Load).program (.int 200)) (t.after (.int 200) visits).meter 3).2.2 = 4 := by
  have length : limit? (.int 200) = some ((200 : Rat) : WithTop Rat) := rfl
  have positive : (0 : WithTop Rat) < ((200 : Rat) : WithTop Rat) := by exact_mod_cast (by norm_num : (0 : Rat) < 200)
  have ready : opened primer = .ok _ := rfl
  have onClock : ∀ load ∈ primer :: visits, load.now ∈ Set.range Value.int := by
    simp [primer, visits]
  obtain ⟨asked, clamps, _, _, polled, _⟩ := meter_follows_polls length positive exact_ints ready onClock
  have half := (clamps 50.0 rfl).inside ⟨by decide +kernel, by decide +kernel⟩
  have last := (Option.some.inj polled).symm
  have before := (asked ⟨.int 449, .ok (.float 20.0)⟩ ⟨449, rfl⟩).1
  have after := (asked ⟨.int 450, .ok (.float 20.0)⟩ ⟨450, rfl⟩).1
  rw [Trail.gap, last] at before after
  refine ⟨_, ready, ?_, last, rfl, ?_, ?_⟩
  · rw [half]
    decide +kernel
  · exact before.trans (if_neg (not_le_of_gt (WithTop.coe_lt_coe.mpr (by decide +kernel))))
  · exact after.trans (if_pos (WithTop.coe_le_coe.mpr (by decide +kernel)))

end CpuLoad.MeterHistory
