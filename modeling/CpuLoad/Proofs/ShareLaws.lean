import CpuLoad.Proofs.TickAccount

/-!
What the busy share between two snapshots depends on: how far the busy ticks and the resting ones grew, and only in
proportion to each other (`share_of_proportional`). So neither the unit of the ticks matters, nor the counts that both
snapshots began from (`measured`), nor how the busy ticks and the resting ones are divided among their states
(`Regrouped`). As long as neither growth is negative, the share rises with the busy one and falls with the resting one
(`share_le_share`).
-/
namespace CpuLoad.ShareLaws
open CpuLoad.Binary64 CpuLoad.NearestDouble CpuLoad.TickAccount CpuLoad.UnitInterval

/-! ### Counts -/

/-- The states in which a processor rests; it is busy in the others. -/
def Rests (t : Tick) : Prop := t = .idle ∨ t = .iowait

instance : DecidablePred Rests := fun t => inferInstanceAs (Decidable (t = .idle ∨ t = .iowait))

def count (s : Snapshot) : Tick → Int
  | .user => s.user
  | .nice => s.nice
  | .system => s.system
  | .idle => s.idle
  | .iowait => s.iowait
  | .irq => s.irq
  | .softirq => s.softirq

def ofCounts (counts : Tick → Int) : Snapshot :=
  ⟨counts .user, counts .nice, counts .system, counts .idle, counts .iowait, counts .irq, counts .softirq⟩

/-- A snapshot in a unit of which a tick has `k`, with other counts to begin from. -/
def measured (k : Int) (start s : Snapshot) : Snapshot := ofCounts fun t => k * count s t + count start t

/-- A snapshot with `n` more ticks in a state. -/
def raised (t : Tick) (n : Int) (s : Snapshot) : Snapshot := ofCounts fun u => count s u + if u = t then n else 0

/-- A snapshot with `n` ticks of one state counted for another one. -/
def moved (t u : Tick) (n : Int) (s : Snapshot) : Snapshot := raised u n (raised t (-n) s)

/-- Moves of ticks from one state to another one, each among the busy states or among the resting ones. -/
def Regrouped : Snapshot → Snapshot → Prop :=
  Relation.ReflTransGen fun s s' => ∃ t u n, (Rests t ↔ Rests u) ∧ s' = moved t u n s

variable {p c p' c' s s' start : Snapshot} {t u : Tick} {k n : Int}

theorem eq_of_count (same : ∀ t, count s t = count s' t) : s = s' := by
  cases s
  cases s'
  simpa [count] using And.intro (same .user)
    ⟨same .nice, same .system, same .idle, same .iowait, same .irq, same .softirq⟩

@[simp] theorem count_ofCounts (counts : Tick → Int) (t : Tick) : count (ofCounts counts) t = counts t := by
  cases t <;> rfl

@[simp] theorem count_raised (v : Tick) : count (raised t n s) v = count s v + if v = t then n else 0 :=
  count_ofCounts _ v

@[simp] theorem total_measured : (measured k start s).total = k * s.total + start.total := by
  simp [measured, ofCounts, count, Snapshot.total]
  ring

@[simp] theorem resting_measured : (measured k start s).resting = k * s.resting + start.resting := by
  simp [measured, ofCounts, count, Snapshot.resting]
  ring

@[simp] theorem total_raised : (raised t n s).total = s.total + n := by
  cases t <;> simp [raised, ofCounts, count, Snapshot.total] <;> omega

@[simp] theorem resting_raised : (raised t n s).resting = s.resting + if Rests t then n else 0 := by
  cases t <;> simp [raised, ofCounts, count, Snapshot.resting, Rests] <;> omega

theorem working_raised : working (raised t n s) = working s + if Rests t then 0 else n := by
  simp only [working, total_raised, resting_raised]
  split_ifs <;> omega

theorem working_moved (kind : Rests t ↔ Rests u) : working (moved t u n s) = working s := by
  simp [moved, working_raised, kind]
  split_ifs <;> omega

theorem resting_moved (kind : Rests t ↔ Rests u) : (moved t u n s).resting = s.resting := by
  simp [moved, kind]
  split_ifs <;> omega

theorem Regrouped.move (before : Regrouped s s') (kind : Rests t ↔ Rests u) (n : Int) : Regrouped s (moved t u n s') :=
  before.tail ⟨t, u, n, kind, rfl⟩

/-- What a snapshot can be regrouped to: every one with as many busy ticks and as many resting ones. -/
theorem regrouped_iff : Regrouped s s' ↔ working s' = working s ∧ s'.resting = s.resting := by
  constructor
  · intro moves
    induction moves with
    | refl => exact ⟨rfl, rfl⟩
    | tail _ move ih =>
      obtain ⟨t, u, n, kind, rfl⟩ := move
      exact ⟨(working_moved kind).trans ih.1, (resting_moved kind).trans ih.2⟩
  · rintro ⟨busy, rest⟩
    -- The user's ticks make up what each other busy state lacks, and the idle ones what the waiting lacks.
    have settled : moved .idle .iowait (s'.iowait - s.iowait) (moved .user .softirq (s'.softirq - s.softirq)
        (moved .user .irq (s'.irq - s.irq) (moved .user .system (s'.system - s.system)
          (moved .user .nice (s'.nice - s.nice) s)))) = s' := by
      unfold working Snapshot.total Snapshot.resting at busy
      unfold Snapshot.resting at rest
      apply eq_of_count
      intro t
      simp only [moved, count_raised]
      cases t <;> simp [count] <;> omega
    have first : Regrouped s s := .refl
    have second := first.move (by decide : Rests .user ↔ Rests .nice) (s'.nice - s.nice)
    have third := second.move (by decide : Rests .user ↔ Rests .system) (s'.system - s.system)
    have fourth := third.move (by decide : Rests .user ↔ Rests .irq) (s'.irq - s.irq)
    have fifth := fourth.move (by decide : Rests .user ↔ Rests .softirq) (s'.softirq - s.softirq)
    have last := fifth.move (by decide : Rests .idle ↔ Rests .iowait) (s'.iowait - s.iowait)
    rwa [settled] at last

/-! ### Shares -/

/-- Growths in the same proportion give the same share. -/
theorem share_of_proportional (positive : 0 < k) (busyScaled : growth working p' c' = k * growth working p c)
    (restingScaled : growth Snapshot.resting p' c' = k * growth Snapshot.resting p c) : p'.share c' = p.share c := by
  have totalScaled : growth Snapshot.total p' c' = k * growth Snapshot.total p c := by
    rw [growth_total, growth_total, busyScaled, restingScaled, mul_add]
  have factor : (k : Rat) ≠ 0 := by exact_mod_cast ne_of_gt positive
  rw [share_eq, share_eq, totalScaled, restingScaled, busyScaled]
  refine if_congr ?_ ?_ rfl
  · rw [mul_pos_iff_of_pos_left positive, mul_nonneg_iff_of_pos_left positive]
  · push_cast
    exact mul_div_mul_left _ _ factor

theorem share_measured (positive : 0 < k) (start : Snapshot) :
    (measured k start p).share (measured k start c) = p.share c := by
  apply share_of_proportional positive
  · simp only [growth, working, total_measured, resting_measured]
    ring
  · simp only [growth, resting_measured]
    ring

theorem share_regrouped (first : Regrouped p p') (second : Regrouped c c') : p'.share c' = p.share c := by
  obtain ⟨busySame, restingSame⟩ := regrouped_iff.mp first
  obtain ⟨busySame', restingSame'⟩ := regrouped_iff.mp second
  apply share_of_proportional Int.one_pos
  · rw [one_mul, growth, growth, busySame, busySame']
  · rw [one_mul, growth, growth, restingSame, restingSame']

/-- The share rises with the busy ticks and falls with the resting ones. -/
theorem share_le_share (busyNonneg : 0 ≤ growth working p c) (restingNonneg : 0 ≤ growth Snapshot.resting p' c')
    (more : growth working p c ≤ growth working p' c')
    (less : growth Snapshot.resting p' c' ≤ growth Snapshot.resting p c) : p.share c ≤ p'.share c' := by
  rw [share_of_nonneg busyNonneg (restingNonneg.trans less), share_of_nonneg (busyNonneg.trans more) restingNonneg]
  generalize growth working p c = b at *
  generalize growth working p' c' = b' at *
  generalize growth Snapshot.resting p c = r at *
  generalize growth Snapshot.resting p' c' = r' at *
  rcases Int.lt_or_eq_of_le busyNonneg with positive | rfl
  · have first : (0 : Rat) < b + r := by exact_mod_cast Int.add_pos_of_pos_of_nonneg positive (restingNonneg.trans less)
    have second : (0 : Rat) < b' + r' := by
      exact_mod_cast Int.add_pos_of_pos_of_nonneg (lt_of_lt_of_le positive more) restingNonneg
    have products : b * r' ≤ b' * r := Int.mul_le_mul more less restingNonneg (busyNonneg.trans more)
    rw [div_le_div_iff₀ first second, mul_add, mul_add, mul_comm (b : Rat) b']
    refine add_le_add_right ?_ _
    exact_mod_cast products
  · have nonneg : (0 : Rat) ≤ b' := by exact_mod_cast more
    have nonneg' : (0 : Rat) ≤ r' := by exact_mod_cast restingNonneg
    rw [Int.cast_zero, zero_div]
    positivity

/-! ### Loads -/

theorem load_of_share (same : p'.share c' = p.share c) : p'.load c' = p.load c := by
  unfold Snapshot.load
  rw [same]

/-- One load does not lie above another one, neither exactly nor as a double. -/
def NotAbove (p c p' c' : Snapshot) : Prop :=
  p.share c ≤ p'.share c' ∧ ∃ x y, p.load c = .ok x ∧ p'.load c' = .ok y ∧ x ≤ y

theorem notAbove_of_growths (busyNonneg : 0 ≤ growth working p c) (restingNonneg : 0 ≤ growth Snapshot.resting p' c')
    (more : growth working p c ≤ growth working p' c')
    (less : growth Snapshot.resting p' c' ≤ growth Snapshot.resting p c) : NotAbove p c p' c' := by
  have shares := share_le_share busyNonneg restingNonneg more less
  obtain ⟨x, nearest, found⟩ := exists_load busyNonneg (restingNonneg.trans less)
  obtain ⟨y, nearest', found'⟩ := exists_load (busyNonneg.trans more) restingNonneg
  exact ⟨shares, x, y, found, found', nearest_mono shares nearest nearest'⟩

theorem notAbove_of_busy (works : ¬ Rests t) (nonneg : 0 ≤ n) (busyNonneg : 0 ≤ growth working p c)
    (restingNonneg : 0 ≤ growth Snapshot.resting p c) : NotAbove p c p (raised t n c) := by
  have more : growth working p (raised t n c) = growth working p c + n := by
    simp only [growth, working_raised, if_neg works]
    omega
  have same : growth Snapshot.resting p (raised t n c) = growth Snapshot.resting p c := by
    simp only [growth, resting_raised, if_neg works]
    omega
  exact notAbove_of_growths busyNonneg (by omega) (by omega) (by omega)

theorem notAbove_of_resting (rests : Rests t) (nonneg : 0 ≤ n) (busyNonneg : 0 ≤ growth working p c)
    (restingNonneg : 0 ≤ growth Snapshot.resting p c) : NotAbove p (raised t n c) p c := by
  have same : growth working p (raised t n c) = growth working p c := by
    simp only [growth, working_raised, if_pos rests]
    omega
  have more : growth Snapshot.resting p (raised t n c) = growth Snapshot.resting p c + n := by
    simp only [growth, resting_raised, if_pos rests]
    omega
  exact notAbove_of_growths (by omega) restingNonneg (by omega) (by omega)

/-! ### Raw rows -/

theorem rowEntry_toReading (s : Snapshot) (t : Tick) : rowEntry s.toReading t = .ok (.int (count s t)) := by
  cases t <;> rfl

theorem isPositive_int_iff (m : Int) : (Number.int m).isPositive = true ↔ 0 < m := by
  simp [Number.isPositive, Number.less, Number.place?, Number.Place.before]

theorem isNonnegative_int_iff (m : Int) : (Number.int m).isNonnegative = true ↔ 0 ≤ m := by
  simp [Number.isNonnegative, Number.atMost, Number.place?, Number.Place.before]

theorem div_int {m d : Int} (positive : 0 < d) : (Number.int m).div (.int d) =
    ((nearest? (mkRat m d.toNat)).map .ok).getD (.error .tooLarge) := by
  have size : d.natAbs = d.toNat := by omega
  simp [Number.div, Int.sign_eq_one_of_pos positive, size]

/-- The raw rows of two snapshots have the busy share of the snapshots. -/
theorem rowLoad_toReading (p c : Snapshot) : rowLoad p.toReading c.toReading = p.load c := by
  have total : Tick.all.foldlM (fun sum t => do Number.add sum (← rowGrowth p.toReading c.toReading t)) (.int 0) =
      .ok (.int (c.total - p.total)) := by
    simp [Tick.all, rowGrowth, rowEntry_toReading, Number.ofValue, Number.sub, Number.add, Number.combine, bind,
      Except.bind, pure, Except.pure, Snapshot.total, count]
    omega
  have resting : count c .idle + count c .iowait - count p .idle - count p .iowait = c.resting - p.resting := by
    simp only [count, Snapshot.resting]
    omega
  unfold rowLoad
  rw [total]
  simp only [rowEntry_toReading, Number.ofValue, Number.add, Number.sub, Number.combine, bind, Except.bind, resting,
    Bool.and_eq_true, isPositive_int_iff, isNonnegative_int_iff]
  unfold Snapshot.load Snapshot.share
  dsimp only
  split_ifs with advance
  · exact div_int advance.1
  · rfl

/-! ### What a load depends on -/

/-- The load between two snapshots is the one that their raw rows have. It stays the same in any unit and from any
    counts on, also if it lies beyond the doubles, and for any division of the busy ticks and of the resting ones among
    their states. Where neither the busy ticks nor the resting ones go back, more ticks in a busy state do not lower it,
    and more in a resting one do not raise it. -/
theorem load_follows_growths (p c : Snapshot) :
    rowLoad p.toReading c.toReading = p.load c ∧
    (∀ (k : Int) (start : Snapshot), 1 ≤ k → (measured k start p).load (measured k start c) = p.load c) ∧
    (∀ p' c', Regrouped p p' → Regrouped c c' → p'.load c' = p.load c) ∧
    (0 ≤ growth working p c → 0 ≤ growth Snapshot.resting p c → ∀ (t : Tick) (n : Int), 0 ≤ n →
      (¬ Rests t → NotAbove p c p (raised t n c)) ∧ (Rests t → NotAbove p (raised t n c) p c)) := by
  refine ⟨rowLoad_toReading p c, ?_, ?_, ?_⟩
  · intro k start positive
    exact load_of_share (share_measured positive start)
  · intro p' c' first second
    exact load_of_share (share_regrouped first second)
  · intro busyNonneg restingNonneg t n nonneg
    constructor
    · intro works
      exact notAbove_of_busy works nonneg busyNonneg restingNonneg
    · intro rests
      exact notAbove_of_resting rests nonneg busyNonneg restingNonneg

/-- Two snapshots of a processor that was busy for half of the time between them. -/
def earlier : Snapshot := ⟨100, 0, 50, 850, 0, 0, 0⟩

def later : Snapshot := ⟨110, 0, 60, 870, 0, 0, 0⟩

theorem load_follows_growths_of_a_half :
    (measured 10 ⟨7, 0, 3, 12, -5, 0, 1⟩ earlier).load (measured 10 ⟨7, 0, 3, 12, -5, 0, 1⟩ later) = .ok 0.5 ∧
    (measured 10 earlier ⟨10 ^ 400, 0, 0, 0, 0, 0, 0⟩).load (measured 10 earlier ⟨1, 0, 0, 10 ^ 400, 0, 0, 0⟩) =
      .error .tooLarge ∧
    Snapshot.load ⟨150, 0, 0, 425, 425, 0, 0⟩ ⟨50, 40, 20, 430, 440, 30, 30⟩ = .ok 0.5 ∧
    NotAbove earlier later earlier (raised .irq 5 later) ∧ NotAbove earlier (raised .iowait 5 later) earlier later := by
  have half : earlier.load later = .ok 0.5 := rfl
  have none : nearest? (Snapshot.share ⟨10 ^ 400, 0, 0, 0, 0, 0, 0⟩ ⟨1, 0, 0, 10 ^ 400, 0, 0, 0⟩) = none := by
    decide +kernel
  have beyond : Snapshot.load ⟨10 ^ 400, 0, 0, 0, 0, 0, 0⟩ ⟨1, 0, 0, 10 ^ 400, 0, 0, 0⟩ = .error .tooLarge := by
    unfold Snapshot.load
    rw [none]
    rfl
  have divided : Regrouped earlier ⟨150, 0, 0, 425, 425, 0, 0⟩ := regrouped_iff.mpr (by decide)
  have divided' : Regrouped later ⟨50, 40, 20, 430, 440, 30, 30⟩ := regrouped_iff.mpr (by decide)
  obtain ⟨_, unit, division, order⟩ := load_follows_growths earlier later
  have raise := order (by decide) (by decide)
  refine ⟨(unit 10 _ (by decide)).trans half, ?_, (division _ _ divided divided').trans half, ?_, ?_⟩
  · exact ((load_follows_growths _ _).2.1 10 earlier (by decide)).trans beyond
  · exact (raise .irq 5 (by decide)).1 (by decide)
  · exact (raise .iowait 5 (by decide)).2 (by decide)

end CpuLoad.ShareLaws
