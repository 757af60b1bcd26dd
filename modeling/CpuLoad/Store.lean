import CpuLoad.Elapsed

/-!
A store keeps the last two accepted samples and the clock reading at which the newer one was accepted. A new sample is
pulled only when the store is due: nothing was accepted yet, or more than a threshold has passed since. A sample that is
not acceptable, one that cannot be judged, or a pull that fails changes nothing. The clock `τ` is any type whose
readings compare, and the sample `σ` any type at all.
-/
namespace CpuLoad

/-- Two generations of a sample and the time of the newer one. -/
structure Store (τ σ : Type) where
  previous : σ
  current : σ
  refreshed : Option τ
  deriving Inhabited

/-- Whether a sample accepted at `refreshed` has to be replaced at `now`. -/
def refreshDue {τ : Type} [Elapsed τ] (threshold now : τ) (refreshed : Option τ) : Except Fault Bool :=
  match refreshed with
  | none => .ok true
  | some t => Elapsed.exceeds threshold now t

/-- The judgement whether a sample may be kept, which may fail. -/
abbrev Judgement (σ : Type) := σ → Except Fault Bool

namespace Store
variable {τ σ : Type}

/-- The store in which nothing has been accepted: both generations hold an initial sample. -/
def start (initial : σ) : Store τ σ := ⟨initial, initial, none⟩

/-- The two generations, the older one first. -/
def pair (s : Store τ σ) : σ × σ := (s.previous, s.current)

/-- Takes an acceptable sample as both generations, and answers whether it is one. -/
def seed (accept : Judgement σ) (now : τ) (sample : σ) (s : Store τ σ) : Except Fault Bool × Store τ σ :=
  match accept sample with
  | .error e => (.error e, s)
  | .ok false => (.ok false, s)
  | .ok true => (.ok true, ⟨sample, sample, some now⟩)

/-- Takes an acceptable sample as the newer generation, and answers both. -/
def offer (accept : Judgement σ) (now : τ) (sample : σ) (s : Store τ σ) : Except Fault (σ × σ) × Store τ σ :=
  match accept sample with
  | .error e => (.error e, s)
  | .ok false => (.ok s.pair, s)
  | .ok true => (.ok (s.current, sample), ⟨s.current, sample, some now⟩)

/-- Whether a new sample has to be pulled. -/
def due [Elapsed τ] (threshold now : τ) (s : Store τ σ) : Except Fault Bool := refreshDue threshold now s.refreshed

/-- The answer to a query for which a pull would bring `reading`, and the store after it. -/
def query [Elapsed τ] (accept : Judgement σ) (threshold now : τ) (reading : Except Fault σ) (s : Store τ σ) :
    Except Fault (σ × σ) × Store τ σ :=
  match s.due threshold now with
  | .error e => (.error e, s)
  | .ok false => (.ok s.pair, s)
  | .ok true =>
    match reading with
    | .error e => (.error e, s)
    | .ok sample => s.offer accept now sample

/-! ### What an operation leaves -/

section
variable {accept : Judgement σ} {now : τ} {sample : σ} {s : Store τ σ}

@[simp] theorem seed_of_accept (h : accept sample = .ok true) :
    s.seed accept now sample = (.ok true, ⟨sample, sample, some now⟩) := by
  simp [seed, h]

@[simp] theorem seed_of_reject (h : accept sample = .ok false) : s.seed accept now sample = (.ok false, s) := by
  simp [seed, h]

/-- What a first sample leaves that can be judged. -/
theorem store_of_seed {accepted : Bool} (judged : accept sample = .ok accepted) :
    (s.seed accept now sample).2 = if accepted then ⟨sample, sample, some now⟩ else s := by
  cases accepted with
  | true => rw [seed_of_accept judged]; rfl
  | false => rw [seed_of_reject judged]; rfl

@[simp] theorem offer_of_accept (h : accept sample = .ok true) :
    s.offer accept now sample = (.ok (s.current, sample), ⟨s.current, sample, some now⟩) := by
  simp [offer, h]

@[simp] theorem offer_of_reject (h : accept sample = .ok false) : s.offer accept now sample = (.ok s.pair, s) := by
  simp [offer, h]

/-- A sample that cannot be judged leaves the store as it was. -/
@[simp] theorem offer_of_error {e : Fault} (h : accept sample = .error e) :
    s.offer accept now sample = (.error e, s) := by
  simp [offer, h]

variable [Elapsed τ] {threshold : τ} {reading : Except Fault σ}

theorem query_of_fresh (h : s.due threshold now = .ok false) :
    s.query accept threshold now reading = (.ok s.pair, s) := by
  simp [query, h]

/-- A pull that fails leaves the store as it was. -/
theorem query_error (e : Fault) : (s.query accept threshold now (.error e)).2 = s := by
  unfold query
  split <;> rfl

/-- A sample that is not acceptable, or cannot be judged, leaves the store as it was. -/
theorem query_of_refused (h : accept sample ≠ .ok true) : (s.query accept threshold now (.ok sample)).2 = s := by
  unfold query
  split
  · rfl
  · rfl
  · show (s.offer accept now sample).2 = s
    cases judged : accept sample with
    | error e => rw [offer_of_error judged]
    | ok accepted =>
      cases accepted with
      | false => rw [offer_of_reject judged]
      | true => exact absurd judged h

/-- A sample that is not acceptable leaves the store as it was, and the answer, if the clock gives one, is what the
    store has. -/
theorem query_of_reject {late : Bool} (due : s.due threshold now = .ok late) (h : accept sample = .ok false) :
    s.query accept threshold now (.ok sample) = (.ok s.pair, s) := by
  cases late <;> simp [query, due, h]

theorem query_of_accept (due : s.due threshold now = .ok true) (h : accept sample = .ok true) :
    s.query accept threshold now (.ok sample) = (.ok (s.current, sample), ⟨s.current, sample, some now⟩) := by
  simp [query, due, h]

/-- The answer is what the store has afterwards. -/
theorem pair_of_query {generations : σ × σ} (h : (s.query accept threshold now reading).1 = .ok generations) :
    generations = (s.query accept threshold now reading).2.pair := by
  cases late : s.due threshold now with
  | error e => simp [query, late] at h
  | ok due =>
    cases due with
    | false =>
      rw [query_of_fresh late] at h ⊢
      exact (Except.ok.inj h).symm
    | true =>
      cases reading with
      | error e => simp [query, late] at h
      | ok sample =>
        cases judged : accept sample with
        | error e => simp [query, late, offer, judged] at h
        | ok accepted =>
          cases accepted with
          | false =>
            rw [query_of_reject late judged] at h ⊢
            exact (Except.ok.inj h).symm
          | true =>
            rw [query_of_accept late judged] at h ⊢
            exact (Except.ok.inj h).symm

end

end Store
end CpuLoad
