import CpuLoad.Configuration
import CpuLoad.Meter
import CpuLoad.Proofs.DoubleDifference
import CpuLoad.Proofs.Precedence
import CpuLoad.Store

/-!
The thresholds that pass the check of the settings. A value passes exactly if it denotes a double that is above zero, or
one that is not a number (`threshold_eq_ok_iff`). A threshold above zero makes a store wait: it is not due at the reading
at which it was refreshed, and it is due once more than the threshold has passed (`paces_of_pos`). One that is not a
number is never exceeded and nothing is ever within it: a store that was refreshed once is not due any more, and a meter
holds no value (`stalls_of_isNaN`).
-/
namespace CpuLoad.Thresholds
open CpuLoad.Binary64 CpuLoad.DoubleDifference CpuLoad.DoubleOrder CpuLoad.ExactClock CpuLoad.Precedence

/-! ### What passes -/

/-- A double that is not zero or less. -/
def Passes (x : Float) : Prop := 0.0 < x ∨ x.isNaN = true

theorem threshold_eq_ok_iff {key : String} {v : Value} {x : Float} :
    SamplerSettings.threshold key v = .ok x ↔ v.toFloat = .ok x ∧ Passes x := by
  constructor
  · intro passed
    have read := toFloat_of_threshold passed
    unfold SamplerSettings.threshold at passed
    rw [read] at passed
    refine ⟨read, not_le_zero_iff.mp fun least => ?_⟩
    dsimp only at passed
    rw [if_pos least] at passed
    cases passed
  · rintro ⟨read, passes⟩
    unfold SamplerSettings.threshold
    rw [read]
    exact if_neg (not_le_zero_iff.mpr passes)

/-- The settings of a sampler with doubles for thresholds. -/
def withThresholds (s : SamplerSettings) (x y : Float) : SamplerSettings :=
  { s with refreshThreshold := .float x, directHold := .float y }

theorem checked_eq_ok_iff {s s' : SamplerSettings} : s.checked = .ok s' ↔
    ∃ x y, s.refreshThreshold.toFloat = .ok x ∧ s.directHold.toFloat = .ok y ∧ Passes x ∧ Passes y ∧
      s' = withThresholds s x y := by
  simp only [sampler_checked_eq_ok_iff, threshold_eq_ok_iff]
  constructor
  · rintro ⟨x, y, ⟨read, passes⟩, ⟨read', passes'⟩, rfl⟩
    exact ⟨x, y, read, read', passes, passes', rfl⟩
  · rintro ⟨x, y, read, read', passes, passes', rfl⟩
    exact ⟨x, y, ⟨read, passes⟩, ⟨read', passes'⟩, rfl⟩

/-- The settings of a document under an environment have doubles for thresholds that pass. -/
theorem thresholds_of_settingsOf {environment : String → Option String} {d : Markup.Document} {S : Settings}
    (done : Configuration.settingsOf environment d = .ok S) :
    ∃ x y, S.sampler.refreshThreshold = .float x ∧ S.sampler.directHold = .float y ∧ Passes x ∧ Passes y := by
  unfold Configuration.settingsOf at done
  cases overridden : Override.applyEach Configuration.override environment Override.all d with
  | error e =>
    rw [overridden] at done
    cases done
  | ok d' =>
    rw [overridden] at done
    obtain ⟨sampler, checked, rfl⟩ := sampler_of_checked done
    obtain ⟨x, y, _, _, passes, passes', rfl⟩ := checked_eq_ok_iff.mp checked
    exact ⟨x, y, rfl, rfl, passes, passes'⟩

/-! ### Thresholds above zero -/

private theorem unpack_zero : (0.0 : Float).toModel.unpack = .zero .positive := by
  have spelled : parts 0.0 = .finite false 0 (-1074) := by decide
  rw [unpack_toModel, spelled]
  rfl

/-- How long a double above zero is. -/
theorem exists_limit_of_pos {x : Float} (positive : 0.0 < x) : ∃ length, limit? (.float x) = some length ∧ 0 < length := by
  have ordered : decide ((0.0 : Float).toModel.unpack.lt x.toModel.unpack) = true := positive
  rw [unpack_zero] at ordered
  have limited {length : WithTop Rat} (found : place x.toModel.unpack = some (placeOf length)) :
      limit? (.float x) = some length := limit_of_place ((place_float x).trans found)
  cases double : x.toModel.unpack with
  | notANumber =>
    rw [double] at ordered
    cases ordered
  | infinity s =>
    rw [double] at ordered
    cases s with
    | negative => cases ordered
    | positive => exact ⟨⊤, limited (congrArg place double), WithTop.top_pos⟩
  | zero s =>
    rw [double] at ordered
    cases s <;> cases ordered
  | finite s m e pos =>
    rw [double] at ordered
    cases s with
    | negative => cases ordered
    | positive =>
      have size : 0 < grains m e := Nat.mul_pos pos (by positivity)
      have longer : (0 : Rat) < ((grains m e : Int) : Rat) / 2 ^ 1074 := div_pos (by exact_mod_cast size) (by positivity)
      exact ⟨_, @limited (some _) (congrArg place double), WithTop.coe_pos.mpr longer⟩

/-- A clock reading lies at no distance from itself. -/
theorem exact_singleton {time : Value} (known : time.rational?.isSome) : Exact {time} := by
  intro now same since same'
  rw [same, same', sub_self]
  cases time with
  | bool b => cases b <;> exact ⟨_, rfl, rfl⟩
  | int n =>
    refine ⟨.int (n - n), rfl, ?_⟩
    rw [Int.sub_self]
    rfl
  | float x =>
    refine ⟨.float (x - x), rfl, ?_⟩
    obtain ⟨q, finite⟩ := Option.isSome_iff_exists.mp known
    have zero := place_minus_self x
    rw [show value? x = some q from finite, Option.map_some] at zero
    exact value_of_place zero
  | _ => cases known

/-- What a store does with a threshold of some length, and a meter with a hold of that length. -/
structure Paces (x : Float) (length : WithTop Rat) : Prop where
  /-- A sample is not replaced at the reading at which it was taken. -/
  fresh {σ : Type} {s : Store Value σ} {time : Value} : s.refreshed = some time → time.rational?.isSome →
    s.due (.float x) time = .ok false
  /-- On an exact clock a sample is replaced at the readings that lie further away than the threshold. -/
  exact {σ : Type} {s : Store Value σ} {readings : Set Value} {now time : Value} : s.refreshed = some time →
    Exact readings → now ∈ readings → time ∈ readings →
      ∃ late, s.due (.float x) now = .ok late ∧ (late = true ↔ length < ((number now - number time : Rat) : WithTop Rat))
  /-- At doubles that lie no further apart than the threshold a sample is kept, however their difference is rounded. -/
  early {σ : Type} {s : Store Value σ} {now time : Float} {p q : Rat} : s.refreshed = some (.float time) →
    value? now = some p → value? time = some q → ((p - q : Rat) : WithTop Rat) ≤ length →
      s.due (.float x) (.float now) = .ok false
  /-- At doubles that lie further apart, by some double beyond the threshold, it is replaced. -/
  late {σ : Type} {s : Store Value σ} {now time y : Float} {p q r : Rat} : s.refreshed = some (.float time) →
    value? now = some p → value? time = some q → value? y = some r → length < (r : WithTop Rat) → r ≤ p - q →
      s.due (.float x) (.float now) = .ok true
  /-- A value is answered at the reading at which it was polled. -/
  held {m : Meter Value} (reading : Except Fault (Option Float)) : m.polled.rational?.isSome →
    m.query (.float x) m.polled reading = (.ok m.value, m)

/-- What a store does with a threshold that nothing exceeds, and a meter with a hold that nothing is within. -/
structure Stalls (x : Float) : Prop where
  /-- A sample that was taken is never replaced. -/
  frozen {σ : Type} {s : Store Value σ} {now time difference : Value} : s.refreshed = some time →
    now.minus time = .ok difference → s.due (.float x) now = .ok false
  /-- Every query polls. -/
  unheld {m : Meter Value} {now difference : Value} : now.minus m.polled = .ok difference →
    m.due (.float x) now = .ok true

variable {σ : Type} {s : Store Value σ} {threshold now time difference : Value}

theorem due_eq_isLess (taken : s.refreshed = some time) (subtracted : now.minus time = .ok difference) :
    s.due threshold now = threshold.isLess difference := by
  unfold Store.due refreshDue
  rw [taken]
  exact exceeds_eq_isLess subtracted

theorem due_exact {readings : Set Value} {length : WithTop Rat} (limited : limit? threshold = some length)
    (taken : s.refreshed = some time) (exact : Exact readings) (current : now ∈ readings) (past : time ∈ readings) :
    ∃ late, s.due threshold now = .ok late ∧
      (late = true ↔ length < ((number now - number time : Rat) : WithTop Rat)) := by
  unfold Store.due refreshDue
  rw [taken]
  exact exceeds_iff exact limited current past

/-- Doubles and a double for a threshold: whether the place of the threshold lies before that of their difference. -/
private theorem due_double {x now time : Float} {place : Number.Place} {length : WithTop Rat}
    (limited : limit? (.float x) = some length) (taken : s.refreshed = some (.float time))
    (known : (Number.float (now - time)).place? = some place) :
    s.due (.float x) (.float now) = .ok ((placeOf length).before place) := by
  obtain ⟨n, read, bound⟩ := place_of_limit limited
  cases read
  rw [due_eq_isLess taken (rfl : (Value.float now).minus (.float time) = .ok (.float (now - time)))]
  show Except.ok ((Number.float x).less (.float (now - time))) = _
  unfold Number.less
  rw [bound, known]

/-- The threshold itself as a double, unless it is infinite. -/
private theorem value_of_limit {x : Float} {length : Rat} (limited : limit? (.float x) = some (length : WithTop Rat)) :
    value? x = some length := by
  obtain ⟨n, read, bound⟩ := place_of_limit limited
  cases read
  exact value_of_place bound

theorem paces_of_pos {x : Float} {length : WithTop Rat} (limited : limit? (.float x) = some length) (positive : 0 < length) :
    Paces x length where
  fresh {_ _ time} taken known := by
    obtain ⟨late, due, beyond⟩ := due_exact limited taken (exact_singleton known) rfl rfl
    rw [sub_self] at beyond
    rw [due, Bool.eq_false_iff.mpr fun contra => not_lt_of_gt positive (beyond.mp contra)]
  exact := due_exact limited
  early {_ _ now time p q} taken current past soon := by
    cases length with
    | top =>
      obtain ⟨place, known, _⟩ := place_minus past current past
      rw [due_double limited taken known]
      rfl
    | coe length =>
      obtain ⟨place, known, kept, _⟩ := place_minus (value_of_limit limited) current past
      rw [due_double limited taken known]
      exact congrArg Except.ok (kept (WithTop.coe_le_coe.mp soon))
  late {_ _ now time y p q r} taken current past bound longer beyond := by
    -- Rounding does not bring the difference below a double that it is not below itself.
    obtain ⟨place, known, _, replaced⟩ := place_minus bound current past
    rw [due_double limited taken known]
    exact congrArg Except.ok (before_of_not_before ((before_iff length r).1.mpr longer) (replaced beyond))
  held {m} reading known := by
    obtain ⟨held, within, shorter⟩ := isWithin_iff (exact_singleton known) limited rfl rfl
    rw [sub_self] at shorter
    apply Meter.query_of_held
    unfold Meter.due
    rw [within, shorter.mpr positive]
    rfl

theorem place_of_isNaN {x : Float} (nan : x.isNaN = true) : (Number.float x).place? = none := by
  rw [place_float]
  have same : x.toModel.unpack.isNaN = true := nan
  cases double : x.toModel.unpack with
  | notANumber => rfl
  | _ =>
    rw [double] at same
    cases same

/-- A limit that is not a number is neither less than a difference nor more. -/
private theorem isLess_of_isNaN {x : Float} (nan : x.isNaN = true) {v w : Value} (subtracted : v.minus w = .ok difference) :
    (Value.float x).isLess difference = .ok false ∧ difference.isLess (.float x) = .ok false := by
  obtain ⟨d, rfl⟩ : ∃ d : Number, difference = d.toValue := by
    unfold Value.minus at subtracted
    cases left : Number.ofValue v with
    | error e => rw [left] at subtracted; cases subtracted
    | ok a =>
      cases right : Number.ofValue w with
      | error e => rw [left, right] at subtracted; cases subtracted
      | ok b =>
        rw [left, right] at subtracted
        change (do return (← a.sub b).toValue) = _ at subtracted
        cases made : a.sub b with
        | error e => rw [made] at subtracted; cases subtracted
        | ok d => rw [made] at subtracted; exact ⟨d, (Except.ok.inj subtracted).symm⟩
  unfold Value.isLess
  rw [Number.ofValue_toValue]
  constructor
  · show Except.ok ((Number.float x).less d) = _
    unfold Number.less
    rw [place_of_isNaN nan]
  · show Except.ok (d.less (.float x)) = _
    unfold Number.less
    rw [place_of_isNaN nan]
    cases d.place? <;> rfl

theorem stalls_of_isNaN {x : Float} (nan : x.isNaN = true) : Stalls x where
  frozen taken subtracted := (due_eq_isLess taken subtracted).trans (isLess_of_isNaN nan subtracted).1
  unheld {m now _} subtracted := by
    have never : Elapsed.isWithin (.float x) now m.polled = .ok false := by
      show (do (← now.minus m.polled).isLess (.float x)) = _
      rw [subtracted]
      exact (isLess_of_isNaN nan subtracted).2
    unfold Meter.due
    rw [never]
    rfl

/-! ### Accepted thresholds -/

/-- The settings of a sampler pass their check exactly if both thresholds denote doubles that are above zero or no
    numbers, and have these doubles for thresholds then. No document and no environment leaves others. A threshold above
    zero paces a store and a meter. One that is not a number is not above zero, and stalls them. -/
theorem accepted_thresholds_pace_unless_unordered (s s' : SamplerSettings) (environment : String → Option String)
    (d : Markup.Document) (S : Settings) (x : Float) :
    (s.checked = .ok s' ↔
      ∃ x y, s.refreshThreshold.toFloat = .ok x ∧ s.directHold.toFloat = .ok y ∧ (0.0 < x ∨ x.isNaN = true) ∧
        (0.0 < y ∨ y.isNaN = true) ∧ s' = withThresholds s x y) ∧
    (Configuration.settingsOf environment d = .ok S →
      ∃ x y, S.sampler.refreshThreshold = .float x ∧ S.sampler.directHold = .float y ∧ (0.0 < x ∨ x.isNaN = true) ∧
        (0.0 < y ∨ y.isNaN = true)) ∧
    (0.0 < x → x.isNaN = false ∧ ∃ length, limit? (.float x) = some length ∧ 0 < length ∧ Paces x length) ∧
    (x.isNaN = true → ¬ 0.0 < x ∧ Stalls x) := by
  refine ⟨checked_eq_ok_iff, thresholds_of_settingsOf, fun positive => ?_, fun nan => ?_⟩
  · obtain ⟨length, limited, longer⟩ := exists_limit_of_pos positive
    exact ⟨(isNaN_of_lt positive).2, length, limited, longer, paces_of_pos limited longer⟩
  · refine ⟨fun positive => ?_, stalls_of_isNaN nan⟩
    rw [(isNaN_of_lt positive).2] at nan
    cases nan

/-- The environment of a threshold that is not a number. -/
def unordered : String → Option String
  | "TICKLOAD_REFRESH_THRESHOLD_MS" => some "nan"
  | _ => none

theorem accepted_thresholds_pace_unless_unordered_text :
    ({ refreshThreshold := .text "950" } : SamplerSettings).checked = .ok { refreshThreshold := .float 950.0 } ∧
      (∃ length, limit? (.float 950.0) = some length ∧ Paces 950.0 length) ∧
      (∃ S x, Configuration.settingsOf unordered .empty = .ok S ∧ S.sampler.refreshThreshold = .float x ∧ ¬ 0.0 < x ∧
        Stalls x) := by
  let S : Settings := { sampler := { refreshThreshold := .float nan } }
  have done : Configuration.settingsOf unordered .empty = .ok S := rfl
  have ⟨checked, _, positive, _⟩ := accepted_thresholds_pace_unless_unordered { refreshThreshold := .text "950" }
    { refreshThreshold := .float 950.0 } unordered .empty default 950.0
  have ⟨_, settings, _, stalled⟩ := accepted_thresholds_pace_unless_unordered default default unordered .empty S nan
  refine ⟨checked.mpr ⟨950.0, 200.0, rfl, rfl, .inl (by decide), .inl (by decide), rfl⟩, ?_, ?_⟩
  · obtain ⟨_, length, limited, _, paces⟩ := positive (by decide)
    exact ⟨length, limited, paces⟩
  · obtain ⟨x, y, same, _, _⟩ := settings done
    cases same
    exact ⟨_, nan, done, rfl, stalled (by decide)⟩

/-- A threshold that is not a number passes the check. -/
theorem unordered_threshold_passes :
    ¬ ∀ s s' : SamplerSettings, s.checked = .ok s' →
      ∃ x y, s'.refreshThreshold = .float x ∧ s'.directHold = .float y ∧ 0.0 < x ∧ 0.0 < y := by
  intro claim
  have passed : ({ refreshThreshold := .float nan } : SamplerSettings).checked = .ok { refreshThreshold := .float nan } :=
    checked_eq_ok_iff.mpr ⟨nan, 200.0, rfl, rfl, .inr (by decide), .inl (by decide), rfl⟩
  obtain ⟨x, y, same, _, positive, _⟩ := claim _ _ passed
  cases same
  exact absurd positive (by decide)

end CpuLoad.Thresholds
