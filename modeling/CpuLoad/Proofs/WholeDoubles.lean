import CpuLoad.Calendar
import CpuLoad.Proofs.DoubleDifference

/-!
Doubles that are whole numbers. Below `2 ^ 53` a natural number is a double (`value_of_natCast`), and a wall clock that
shows such a double shows that second (`secondOf_of_whole`): the fraction that is left of it is a zero.
-/
namespace CpuLoad.WholeDoubles
open CpuLoad.Binary64 CpuLoad.Calendar CpuLoad.DoubleDifference CpuLoad.DoubleOrder CpuLoad.ExactClock
  CpuLoad.NearestDouble
open Float.Model (UnpackedFloat)

theorem floorLog2_one {n : Nat} (pos : 0 < n) : floorLog2 n 1 = n.log2 := by
  have least : 2 ^ n.log2 ≤ n := Nat.log2_self_le (Nat.ne_of_gt pos)
  have one : Nat.log2 1 = 0 := by decide
  unfold floorLog2
  simp [one, least]

/-- The double nearest to a whole number has its leading place at the top of the mantissa. -/
theorem parts_nearest {n : Nat} (pos : 0 < n) (bound : n < 2 ^ 53) :
    ∃ x, nearest? (n : Rat) = some x ∧ parts x = .finite false (n * 2 ^ (52 - n.log2)) (-((52 - n.log2 : Nat) : Int)) := by
  have places : n.log2 < 53 := (Nat.log2_lt (Nat.ne_of_gt pos)).mpr bound
  obtain ⟨low, high⟩ := (Nat.log2_eq_iff (Nat.ne_of_gt pos)).mp rfl
  obtain ⟨s, shift⟩ : ∃ s, 52 - n.log2 = s := ⟨_, rfl⟩
  have place : max (floorLog2 n 1 - 52) (-1074) = -(s : Int) := by
    rw [floorLog2_one pos]
    omega
  have mantissa : 2 ^ 52 ≤ n * 2 ^ s ∧ n * 2 ^ s < 2 ^ 53 := by
    have top : n.log2 + s = 52 := by omega
    constructor
    · calc 2 ^ 52 = 2 ^ n.log2 * 2 ^ s := by rw [← Nat.pow_add, top]
        _ ≤ n * 2 ^ s := Nat.mul_le_mul_right _ low
    · calc n * 2 ^ s < 2 ^ (n.log2 + 1) * 2 ^ s := Nat.mul_lt_mul_of_pos_right high (Nat.two_pow_pos s)
        _ = 2 ^ 53 := by rw [← Nat.pow_add, Nat.add_right_comm, top]
  have bits : nearestBits n 1 = (1074 - s) * 2 ^ 52 + n * 2 ^ s := by
    rw [nearestBits_eq pos place.symm, digits_neg_natCast, roundQuotient_one]
    congr 2
    omega
  have finite : nearestBits n 1 < infinityBits := by
    unfold infinityBits
    omega
  refine ⟨ofBits false (nearestBits n 1), ?_, ?_⟩
  · have sign : decide ((n : Rat).num < 0) = false := decide_eq_false (Int.not_lt.mpr (Rat.num_nonneg.mpr (Nat.cast_nonneg n)))
    exact (if_pos finite).trans (congrArg (fun negative => some (ofBits negative (nearestBits n 1))) sign)
  · rw [parts_ofBits finite, if_neg (by omega), bits, shift]
    congr 1
    · omega
    · rw [Int.ofNat_eq_natCast]
      omega

theorem value_of_natCast {n : Nat} (bound : n < 2 ^ 53) : ∃ x, nearest? (n : Rat) = some x ∧ value? x = some (n : Rat) := by
  rcases Nat.eq_zero_or_pos n with rfl | pos
  · exact ⟨ofBits false 0, rfl, by decide +kernel⟩
  obtain ⟨x, nearest, spelled⟩ := parts_nearest pos bound
  refine ⟨x, nearest, ?_⟩
  have power : (2 : Rat) ^ (52 - n.log2) ≠ 0 := by positivity
  unfold value?
  rw [spelled]
  simp only [Bool.false_eq_true, ↓reduceIte, Option.some.injEq]
  unfold scaled
  split
  · next whole =>
    have shift : 52 - n.log2 = 0 := by omega
    simp [shift]
  · rw [neg_neg, Int.toNat_natCast, Rat.mkRat_eq_div]
    push_cast
    exact mul_div_cancel_right₀ _ power

/-- The size of the parts of a double that is a whole number. -/
theorem scaled_eq_natCast {m n : Nat} {e : Int} (whole : scaled m e = n) :
    (if 0 ≤ e then m * 2 ^ e.toNat else m / 2 ^ (-e).toNat) = n := by
  unfold scaled at whole
  split at whole
  · next large =>
    rw [if_pos large]
    exact_mod_cast whole
  · next small =>
    rw [if_neg small]
    have power : (2 : Rat) ^ (-e).toNat ≠ 0 := by positivity
    rw [Rat.mkRat_eq_div, Int.cast_natCast, Nat.cast_pow, Nat.cast_ofNat, div_eq_iff power] at whole
    have product : m = n * 2 ^ (-e).toNat := by exact_mod_cast whole
    rw [product, Nat.mul_div_cancel _ (Nat.two_pow_pos _)]

theorem scaled_nonneg (m : Nat) (e : Int) : 0 ≤ scaled m e := by
  unfold scaled
  split
  · positivity
  · rw [Rat.mkRat_eq_div]
    positivity

theorem parts_of_value {x : Float} {q : Rat} (known : value? x = some q) :
    ∃ negative m e, parts x = .finite negative m e ∧ (if negative then -scaled m e else scaled m e) = q := by
  unfold value? at known
  cases spelled : parts x with
  | nan =>
    rw [spelled] at known
    cases known
  | infinite negative =>
    rw [spelled] at known
    cases known
  | finite negative m e =>
    rw [spelled] at known
    exact ⟨negative, m, e, rfl, Option.some.inj known⟩

/-- A sign before a natural number is one before zero. -/
theorem scaled_of_whole {negative : Bool} {m n : Nat} {e : Int} (value : (if negative then -scaled m e else scaled m e) = n) :
    scaled m e = n ∧ (negative → n = 0) := by
  cases negative with
  | false => exact ⟨value, nofun⟩
  | true =>
    have opposite : -scaled m e = n := value
    have positive := scaled_nonneg m e
    have nonneg : (0 : Rat) ≤ n := Nat.cast_nonneg n
    have zero : (n : Rat) = 0 := by linarith
    exact ⟨by linarith, fun _ => by exact_mod_cast zero⟩

/-- A double that is a natural number is read as it. -/
theorem toInt_of_whole {x : Float} {n : Nat} (whole : value? x = some (n : Rat)) : (Value.float x).toInt = .ok (n : Int) := by
  obtain ⟨negative, m, e, spelled, value⟩ := parts_of_value whole
  obtain ⟨size, sign⟩ := scaled_of_whole value
  have truncated : truncate? x = some (n : Int) := by
    unfold truncate?
    rw [spelled]
    dsimp only
    rw [scaled_eq_natCast size]
    split
    · next negative =>
      rw [sign negative]
      rfl
    · rfl
  simp [Value.toInt, spelled, truncated]

theorem unpack_of_zero {x : Float} (zero : value? x = some 0) : ∃ s, x.toModel.unpack = .zero s := by
  obtain ⟨negative, m, e, spelled, value⟩ := parts_of_value zero
  have size : scaled m e = ((0 : Nat) : Rat) := (scaled_of_whole (value.trans Nat.cast_zero.symm)).1
  have none : m = 0 := by
    unfold scaled at size
    split at size
    · have product : m * 2 ^ e.toNat = 0 := by exact_mod_cast size
      simpa using product
    · simpa [Rat.mkRat_eq_div] using size
  rw [unpack_toModel, spelled, none]
  exact ⟨_, unpacked_zero negative e⟩

/-- A zero is a zero in whole microseconds, too. -/
theorem value_microseconds {x : Float} (zero : value? x = some 0) : value? (x * 1000000.0) = some 0 := by
  obtain ⟨s, unpacked⟩ := unpack_of_zero zero
  apply value_of_place
  rw [place_float]
  show place (Float.Model.pack (UnpackedFloat.mul .binary64 x.toModel.unpack (1000000.0 : Float).toModel.unpack)).unpack = _
  rw [unpacked]
  obtain ⟨t, product⟩ : ∃ t, UnpackedFloat.mul .binary64 (.zero s) (1000000.0 : Float).toModel.unpack = .zero t := by
    cases s <;> exact ⟨_, rfl⟩
  rw [product, unpack_pack_zero]
  rfl

theorem eq_of_not_before {place : Number.Place} {q : Rat} (least : (Number.Place.at q).before place = false)
    (most : place.before (.at q) = false) : place = .at q := by
  cases place with
  | below => cases most
  | above => cases least
  | «at» p =>
    have le : p ≤ q := not_lt.mp (of_decide_eq_false least)
    have ge : q ≤ p := not_lt.mp (of_decide_eq_false most)
    rw [le_antisymm le ge]

/-- What is left of a double that is a whole number is a zero. -/
theorem fraction_of_whole {x y : Float} {n : Nat} (whole : value? x = some (n : Rat)) (value : value? y = some (n : Rat)) :
    value? (x - y) = some 0 := by
  have zero : value? (0.0 : Float) = some 0 := by decide +kernel
  obtain ⟨place, found, least, most⟩ := place_minus zero whole value
  have exact : place = .at 0 := eq_of_not_before (least (le_of_eq (sub_self _))) (most (le_of_eq (sub_self _).symm))
  rw [exact] at found
  exact value_of_place found

/-- A wall clock that shows a whole number shows that second, whatever kind of number it is. -/
theorem secondOf_of_whole {wall : Value} {n : Nat} (bound : n < 2 ^ 53) (shows : wall.rational? = some (n : Rat)) :
    secondOf wall = .ok (n : Int) := by
  have inside : ¬ ((n : Int) < -2 ^ 63 ∨ 2 ^ 63 ≤ (n : Int)) := by
    have size : (n : Int) < 2 ^ 53 := by exact_mod_cast bound
    omega
  have kept : (if (n : Int) < -2 ^ 63 || 2 ^ 63 ≤ (n : Int) then throw .tooLarge else return (n : Int) :
      Except Fault Int) = .ok (n : Int) := by
    simp only [Bool.or_eq_true, decide_eq_true_eq, if_neg inside]
    rfl
  cases wall with
  | int m =>
    obtain rfl : m = n := by exact_mod_cast (Option.some.inj shows : (m : Rat) = n)
    exact kept
  | bool b =>
    have value : (if b then 1 else 0 : Rat) = n := Option.some.inj shows
    have same : (if b then 1 else 0 : Int) = n := by
      cases b <;> exact_mod_cast value
    rw [← same] at kept ⊢
    exact kept
  | float x =>
    obtain ⟨y, nearest, value⟩ := value_of_natCast bound
    have same : ofInt? (n : Int) = some y := by
      unfold ofInt?
      rw [Int.cast_natCast]
      exact nearest
    have none : roundRational 0 = 0 := by decide +kernel
    unfold secondOf
    rw [toInt_of_whole shows]
    simp only [same, bind, Except.bind, Option.getD_some]
    rw [value_microseconds (fraction_of_whole shows value), Option.getD_some, none, Int.zero_ediv, Int.add_zero]
    exact kept
  | _ => cases shows

end CpuLoad.WholeDoubles
