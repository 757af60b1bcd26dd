import CpuLoad.Elapsed
import Mathlib

/-!
Clock readings that are exact: the difference of any two of them is the difference of the numbers that they are
(`Exact`). Integers always are, and doubles are as long as no difference of theirs is rounded. Whether more or less than
a limit has passed between two such readings is then a question about numbers (`exceeds_iff`, `isWithin_iff`); the limit
may be infinite.
-/
namespace CpuLoad.ExactClock
open CpuLoad.Binary64

def number (reading : Value) : Rat := reading.rational?.getD 0

/-- How long a limit is, if it is a number other than minus infinity. -/
def limit? (limit : Value) : Option (WithTop Rat) :=
  match Number.ofValue limit with
  | .error _ => none
  | .ok n =>
    match n.place? with
    | some (.at q) => some q
    | some .above => some ⊤
    | _ => none

/-- Whether the difference of any two clock readings is the one of the numbers that they are. -/
def Exact (readings : Set Value) : Prop :=
  ∀ now ∈ readings, ∀ since ∈ readings,
    ∃ difference, now.minus since = .ok difference ∧ difference.rational? = some (number now - number since)

theorem exact_ints : Exact (Set.range Value.int) := by
  rintro _ ⟨now, rfl⟩ _ ⟨since, rfl⟩
  refine ⟨.int (now - since), rfl, ?_⟩
  show some ((now - since : Int) : Rat) = some ((now : Rat) - (since : Rat))
  rw [Int.cast_sub]

/-! ### Comparing with a limit -/

def placeOf : WithTop Rat → Number.Place
  | none => .above
  | some q => .at q

theorem place_of_double {x : Float} {q : Rat} (finite : value? x = some q) :
    (Number.float x).place? = some (.at q) := by
  unfold Number.place?
  cases spelled : parts x with
  | nan =>
    unfold value? at finite
    rw [spelled] at finite
    cases finite
  | infinite negative =>
    unfold value? at finite
    rw [spelled] at finite
    cases finite
  | finite negative m e => simp only [finite, spelled, Option.getD_some]

theorem value_of_place {x : Float} {q : Rat} (found : (Number.float x).place? = some (.at q)) : value? x = some q := by
  unfold Number.place? at found
  cases spelled : parts x with
  | nan => simp only [spelled, reduceCtorEq] at found
  | infinite negative => cases negative <;> simp only [spelled] at found <;> cases found
  | finite negative m e =>
    have known : (value? x).isSome := by
      unfold value?
      rw [spelled]
      rfl
    obtain ⟨p, value⟩ := Option.isSome_iff_exists.mp known
    simp only [spelled, value, Option.getD_some] at found
    cases found
    exact value

theorem place_of_rational {v : Value} {q : Rat} (found : v.rational? = some q) :
    ∃ n, Number.ofValue v = .ok n ∧ n.place? = some (.at q) := by
  cases v with
  | bool b =>
    refine ⟨_, rfl, ?_⟩
    cases found
    cases b <;> rfl
  | int n =>
    cases found
    exact ⟨_, rfl, rfl⟩
  | float x => exact ⟨_, rfl, place_of_double found⟩
  | _ => cases found

theorem place_of_limit {v : Value} {limit : WithTop Rat} (found : limit? v = some limit) :
    ∃ n, Number.ofValue v = .ok n ∧ n.place? = some (placeOf limit) := by
  unfold limit? at found
  cases number : Number.ofValue v with
  | error e => rw [number] at found; cases found
  | ok n =>
    rw [number] at found
    refine ⟨n, rfl, ?_⟩
    dsimp only at found
    cases place : n.place? with
    | none => rw [place] at found; cases found
    | some p =>
      rw [place] at found
      rcases p with _ | q | _
      · cases found
      · cases found
        rfl
      · cases found
        rfl

theorem limit_of_place {x : Float} {limit : WithTop Rat} (found : (Number.float x).place? = some (placeOf limit)) :
    limit? (.float x) = some limit := by
  unfold limit?
  simp only [Number.ofValue, found]
  cases limit <;> rfl

theorem before_iff (limit : WithTop Rat) (q : Rat) :
    ((placeOf limit).before (.at q) = true ↔ limit < q) ∧
      (Number.Place.before (.at q) (placeOf limit) = true ↔ q < limit) := by
  cases limit with
  | top =>
    constructor
    · exact ⟨fun contra => Bool.noConfusion contra, fun contra => absurd contra (not_lt_of_ge le_top)⟩
    · exact ⟨fun _ => WithTop.coe_lt_top q, fun _ => rfl⟩
  | coe p =>
    constructor
    · exact decide_eq_true_iff.trans WithTop.coe_lt_coe.symm
    · exact decide_eq_true_iff.trans WithTop.coe_lt_coe.symm

variable {readings : Set Value} {threshold now since : Value} {limit : WithTop Rat}

private theorem isLess_iff {difference : Value} {q : Rat} (length : limit? threshold = some limit)
    (known : difference.rational? = some q) :
    (∃ less, threshold.isLess difference = .ok less ∧ (less = true ↔ limit < q)) ∧
      ∃ less, difference.isLess threshold = .ok less ∧ (less = true ↔ q < limit) := by
  obtain ⟨m, left, place⟩ := place_of_limit length
  obtain ⟨n, right, place'⟩ := place_of_rational known
  obtain ⟨longer, shorter⟩ := before_iff limit q
  unfold Value.isLess
  rw [left, right]
  refine ⟨⟨_, rfl, ?_⟩, ⟨_, rfl, ?_⟩⟩
  · unfold Number.less
    rw [place, place']
    exact longer
  · unfold Number.less
    rw [place, place']
    exact shorter

theorem exceeds_eq_isLess {difference : Value} (subtracted : now.minus since = .ok difference) :
    Elapsed.exceeds threshold now since = threshold.isLess difference := by
  have known : since ≠ .null := by
    rintro rfl
    unfold Value.minus at subtracted
    cases first : Number.ofValue now with
    | error e => rw [first] at subtracted; cases subtracted
    | ok n => rw [first] at subtracted; cases subtracted
  cases since with
  | null => exact absurd rfl known
  | _ =>
    change (do threshold.isLess (← now.minus _)) = _
    rw [subtracted]
    rfl

/-- Whether more than a limit has passed between two exact clock readings. -/
theorem exceeds_iff (exact : Exact readings) (length : limit? threshold = some limit) (current : now ∈ readings)
    (past : since ∈ readings) :
    ∃ late, Elapsed.exceeds threshold now since = .ok late ∧
      (late = true ↔ limit < ((number now - number since : Rat) : WithTop Rat)) := by
  obtain ⟨difference, subtracted, known⟩ := exact now current since past
  rw [exceeds_eq_isLess subtracted]
  exact (isLess_iff length known).1

/-- Whether less than a limit has passed between two exact clock readings. -/
theorem isWithin_iff (exact : Exact readings) (length : limit? threshold = some limit) (current : now ∈ readings)
    (past : since ∈ readings) :
    ∃ held, Elapsed.isWithin threshold now since = .ok held ∧
      (held = true ↔ ((number now - number since : Rat) : WithTop Rat) < limit) := by
  obtain ⟨difference, subtracted, known⟩ := exact now current since past
  show ∃ held, (do (← now.minus since).isLess threshold) = .ok held ∧ _
  rw [subtracted]
  exact (isLess_iff length known).2

end CpuLoad.ExactClock
