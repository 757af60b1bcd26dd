import CpuLoad.Proofs.ExactClock
import CpuLoad.Proofs.NearestDouble

/-!
The difference of two doubles does not fall when the first of them grows (`exceeds_of_later_double`). A finite double is a whole
number of grains, each the size of the least double above zero. The difference of two of them is that of their grains,
cut to the 53 leading binary places and rounded there to the nearest even one (`place_sub`), or infinite beyond the
largest double; and a cut at a higher place of a larger number never comes out below (`rounded_mono`).
-/
namespace CpuLoad.DoubleDifference
open CpuLoad.Binary64 CpuLoad.DoubleOrder CpuLoad.ExactClock CpuLoad.NearestDouble
open Float.Model (UnpackedFloat Format totalExponent)
open Float.Model.UnpackedFloat (Sign Accuracy ExtendedMantissa packComponents unpackMantissa unpackExponent unpackSign
  shiftToTargetExponent roundWithAccuracy decreaseExponent)

/-! ### Rounding to leading places -/

def rounded (k : Nat) : Nat := roundQuotient k (2 ^ (k.log2 - 52)) * 2 ^ (k.log2 - 52)

private theorem leading_bounds {k : Nat} (pos : 0 < k) :
    roundQuotient k (2 ^ (k.log2 - 52)) ≤ 2 ^ 53 ∧ (52 ≤ k.log2 → 2 ^ 52 ≤ roundQuotient k (2 ^ (k.log2 - 52))) := by
  have step : 0 < 2 ^ (k.log2 - 52) := Nat.two_pow_pos _
  constructor
  · apply roundQuotient_le step
    rw [← Nat.pow_add]
    have bound : k < 2 ^ (k.log2 + 1) := Nat.lt_log2_self
    exact Nat.le_of_lt (Nat.lt_of_lt_of_le bound (Nat.pow_le_pow_right (by decide) (by omega)))
  · intro long
    apply le_roundQuotient step
    rw [← Nat.pow_add]
    have same : 52 + (k.log2 - 52) = k.log2 := by omega
    rw [same]
    exact Nat.log2_self_le (Nat.ne_of_gt pos)

theorem rounded_mono {k l : Nat} (le : k ≤ l) : rounded k ≤ rounded l := by
  rcases Nat.eq_zero_or_pos k with rfl | pos
  · have zero : rounded 0 = 0 := by decide
    rw [zero]
    exact Nat.zero_le _
  have positive : 0 < l := Nat.lt_of_lt_of_le pos le
  have logs : k.log2 ≤ l.log2 := (Nat.le_log2 (Nat.ne_of_gt positive)).mpr
    (Nat.le_trans (Nat.log2_self_le (Nat.ne_of_gt pos)) le)
  unfold rounded
  rcases Nat.lt_or_eq_of_le (Nat.sub_le_sub_right logs 52) with less | same
  · -- The larger number is cut at a higher place, where its own leading place alone is as much as a carry of the other.
    have carry := (leading_bounds pos).1
    have leading := (leading_bounds positive).2 (by omega)
    calc roundQuotient k (2 ^ (k.log2 - 52)) * 2 ^ (k.log2 - 52)
        ≤ 2 ^ 53 * 2 ^ (k.log2 - 52) := Nat.mul_le_mul_right _ carry
      _ = 2 ^ (53 + (k.log2 - 52)) := (Nat.pow_add ..).symm
      _ ≤ 2 ^ (52 + (l.log2 - 52)) := Nat.pow_le_pow_right (by decide) (by omega)
      _ = 2 ^ 52 * 2 ^ (l.log2 - 52) := Nat.pow_add ..
      _ ≤ roundQuotient l (2 ^ (l.log2 - 52)) * 2 ^ (l.log2 - 52) := Nat.mul_le_mul_right _ leading
  · rw [same]
    exact Nat.mul_le_mul_right _ (roundQuotient_mono (Nat.two_pow_pos _) le)

/-! ### Rounding as the arithmetic of doubles does it -/

private theorem shift_succ (em : ExtendedMantissa) (j : Nat) : em >>> (j + 1) = (em >>> j).shiftRightOne := rfl

private theorem mod_two_pow_cases (m j : Nat) :
    (m / 2 ^ j % 2 = 0 ∧ m % 2 ^ (j + 1) = m % 2 ^ j) ∨ (m / 2 ^ j % 2 = 1 ∧ m % 2 ^ (j + 1) = m % 2 ^ j + 2 ^ j) := by
  have split : m % 2 ^ (j + 1) = m % 2 ^ j + 2 ^ j * (m / 2 ^ j % 2) := Nat.mod_pow_succ
  rcases Nat.mod_two_eq_zero_or_one (m / 2 ^ j) with zero | one
  · rw [zero, Nat.mul_zero] at split
    exact .inl ⟨zero, split⟩
  · rw [one, Nat.mul_one] at split
    exact .inr ⟨one, split⟩

/-- What a shift leaves of a mantissa: the first of the bits that are shifted out, and whether there are others. -/
private theorem shift_fields (m j : Nat) :
    (⟨m, false, false⟩ : ExtendedMantissa) >>> (j + 1) =
      ⟨m / 2 ^ (j + 1), decide (2 ^ j ≤ m % 2 ^ (j + 1)), decide (m % 2 ^ j ≠ 0)⟩ := by
  induction j with
  | zero =>
    show (⟨m / 2, m % 2 != 0, false⟩ : ExtendedMantissa) = _
    rcases Nat.mod_two_eq_zero_or_one m with bit | bit <;> simp [bit, Nat.mod_one]
  | succ j ih =>
    have small : m % 2 ^ j < 2 ^ j := Nat.mod_lt m (Nat.two_pow_pos j)
    have less : m % 2 ^ (j + 1) < 2 ^ (j + 1) := Nat.mod_lt m (Nat.two_pow_pos _)
    have mantissa : m / 2 ^ (j + 1) / 2 = m / 2 ^ (j + 1 + 1) := by rw [Nat.div_div_eq_div_mul, ← Nat.pow_succ]
    have first : (m / 2 ^ (j + 1) % 2 != 0) = decide (2 ^ (j + 1) ≤ m % 2 ^ (j + 1 + 1)) := by
      rcases mod_two_pow_cases m (j + 1) with ⟨bit, same⟩ | ⟨bit, more⟩
      · rw [bit, same]
        simp [less]
      · rw [bit, more]
        simp
    have others : (decide (2 ^ j ≤ m % 2 ^ (j + 1)) || decide (m % 2 ^ j ≠ 0)) = decide (m % 2 ^ (j + 1) ≠ 0) := by
      rcases mod_two_pow_cases m j with ⟨_, same⟩ | ⟨_, more⟩
      · rw [same]
        simp [small]
      · rw [more]
        simp
    rw [shift_succ, ih]
    unfold ExtendedMantissa.shiftRightOne
    rw [mantissa, first, others]

theorem roundedMantissa_shift (m j : Nat) :
    ((⟨m, false, false⟩ : ExtendedMantissa) >>> j).roundedMantissa = roundQuotient m (2 ^ j) := by
  cases j with
  | zero => exact (roundQuotient_one m).symm
  | succ j =>
    have small : m % 2 ^ j < 2 ^ j := Nat.mod_lt m (Nat.two_pow_pos j)
    have double : 2 ^ (j + 1) = 2 * 2 ^ j := Nat.pow_succ'
    rw [shift_fields]
    unfold roundQuotient ExtendedMantissa.roundedMantissa
    dsimp only
    generalize m / 2 ^ (j + 1) = quotient
    rcases mod_two_pow_cases m j with ⟨_, same⟩ | ⟨_, more⟩
    · -- The first bit shifted out is zero, so less than a half is.
      rw [same, double, if_pos (by omega), decide_eq_false (by omega)]
      cases decide (m % 2 ^ j ≠ 0) <;> rfl
    · rw [more, double, decide_eq_true (by omega), if_neg (by omega)]
      rcases Nat.eq_zero_or_pos (m % 2 ^ j) with zero | above
      · rw [if_neg (by omega), decide_eq_false (by omega)]
        show quotient + quotient % 2 = _
        split_ifs <;> omega
      · rw [if_pos (by omega), decide_eq_true (by omega)]
        rfl

/-- The size of a double in grains. -/
def grains (m : Nat) (e : Int) : Nat := m * 2 ^ (e + 1074).toNat

/-- Mantissa and exponent are those of a double, if the exponent is not too large for one. -/
def Canonical (m : Nat) (e : Int) : Prop := m < 2 ^ 53 ∧ -1074 ≤ e ∧ (e = -1074 ∨ 2 ^ 52 ≤ m)

/-- The exponent at which a mantissa has 53 places, unless it is below the least one. -/
def target (m : Nat) (e : Int) : Int := max (m.log2 + e - 52) (-1074)

private theorem targetExponent_eq (m : Nat) (e : Int) :
    Format.binary64.targetExponent (totalExponent m e) = target m e := by
  show max ((m.log2 : Int) + 1 + e - (1 + 52 : Nat)) (3 - 2 ^ 10 - (1 + 52 : Nat)) = _
  unfold target
  omega

private theorem shiftToTarget_eq (m : Nat) (e : Int) :
    shiftToTargetExponent .binary64 m e .exact =
      ((⟨m, false, false⟩ : ExtendedMantissa) >>> (target m e - e).toNat, e + (target m e - e).toNat) := by
  rw [← targetExponent_eq]
  rfl

private theorem shiftToTarget_of_short {m : Nat} {e : Int} (short : m < 2 ^ 53) (least : -1074 ≤ e) :
    shiftToTargetExponent .binary64 m e .exact = (⟨m, false, false⟩, e) := by
  have places : m.log2 ≤ 52 := by
    rcases Nat.eq_zero_or_pos m with rfl | pos
    · decide
    · have := (Nat.log2_lt (Nat.ne_of_gt pos)).mpr short
      omega
  have still : (target m e - e).toNat = 0 := by
    unfold target
    omega
  rw [shiftToTarget_eq, still]
  refine Prod.ext rfl ?_
  show e + ((0 : Nat) : Int) = e
  omega

private theorem shiftToTarget_of_carry {e : Int} (least : -1074 ≤ e) :
    shiftToTargetExponent .binary64 (2 ^ 53) e .exact = (⟨2 ^ 52, false, false⟩, e + 1) := by
  have one : (target (2 ^ 53) e - e).toNat = 1 := by
    unfold target
    rw [Nat.log2_two_pow]
    omega
  rw [shiftToTarget_eq, one]
  rfl

theorem log2_grains {m : Nat} (pos : 0 < m) (e : Int) : (grains m e).log2 = m.log2 + (e + 1074).toNat := by
  have positive : 0 < grains m e := Nat.mul_pos pos (Nat.two_pow_pos _)
  refine (Nat.log2_eq_iff (Nat.ne_of_gt positive)).mpr ⟨?_, ?_⟩
  · rw [Nat.pow_add]
    exact Nat.mul_le_mul_right _ (Nat.log2_self_le (Nat.ne_of_gt pos))
  · rw [Nat.add_right_comm, Nat.pow_add]
    exact Nat.mul_lt_mul_of_pos_right Nat.lt_log2_self (Nat.two_pow_pos _)

/-- Rounding cuts the size in grains where the mantissa has 53 places. -/
theorem rounded_grains {m : Nat} (pos : 0 < m) {e : Int} (least : -1074 ≤ e) (below : e ≤ target m e) :
    rounded (grains m e) = grains (roundQuotient m (2 ^ (m.log2 - 52))) (target m e) := by
  have place : (grains m e).log2 - 52 = (target m e + 1074).toNat := by
    rw [log2_grains pos]
    unfold target
    omega
  have power : 2 ^ (target m e + 1074).toNat = 2 ^ (m.log2 - 52) * 2 ^ (e + 1074).toNat := by
    rw [← Nat.pow_add]
    congr 1
    unfold target at below ⊢
    omega
  unfold rounded
  rw [place]
  unfold grains
  congr 1
  rw [power, roundQuotient_mul (Nat.two_pow_pos _)]

private theorem roundQuotient_leading_pos {m : Nat} (pos : 0 < m) : 0 < roundQuotient m (2 ^ (m.log2 - 52)) := by
  rcases Nat.lt_or_ge m.log2 52 with short | long
  · have whole : m.log2 - 52 = 0 := by omega
    rw [whole, Nat.pow_zero, roundQuotient_one]
    exact pos
  · exact Nat.lt_of_lt_of_le (Nat.two_pow_pos 52) ((leading_bounds pos).2 long)

private theorem roundWithAccuracy_spec (s : Sign) {m : Nat} (pos : 0 < m) {e : Int} (least : -1074 ≤ e)
    (below : e ≤ target m e) : ∃ m' e' pos', roundWithAccuracy .binary64 s m e .exact = .finite s m' e' pos' ∧
      Canonical m' e' ∧ grains m' e' = rounded (grains m e) := by
  have first : (target m e - e).toNat = m.log2 - 52 ∧ e + ((m.log2 - 52 : Nat) : Int) = target m e := by
    unfold target at below ⊢
    omega
  have known : -1074 ≤ target m e := le_max_right ..
  have positive := roundQuotient_leading_pos pos
  have ⟨carry, leading⟩ := leading_bounds pos
  have long : target m e = -1074 ∨ 2 ^ 52 ≤ roundQuotient m (2 ^ (m.log2 - 52)) := by
    rcases Nat.lt_or_ge m.log2 52 with short | long
    · left
      unfold target at below ⊢
      omega
    · exact .inr (leading long)
  have size := rounded_grains pos least below
  have mantissa := roundedMantissa_shift m (m.log2 - 52)
  unfold roundWithAccuracy
  rw [shiftToTarget_eq, first.1, first.2]
  dsimp only
  rw [mantissa]
  generalize roundQuotient m (2 ^ (m.log2 - 52)) = r at *
  rcases Nat.lt_or_eq_of_le carry with short | rfl
  · rw [shiftToTarget_of_short short known]
    exact ⟨r, target m e, positive, dif_neg (Nat.ne_of_gt positive), ⟨short, known, long⟩, size.symm⟩
  · -- The carry makes a place too many, and what it leaves is a power of two: a second shift loses nothing.
    rw [shiftToTarget_of_carry known]
    refine ⟨2 ^ 52, target m e + 1, by decide, rfl, ⟨by decide, by omega, .inr (le_refl _)⟩, ?_⟩
    rw [size]
    unfold grains
    have power : (target m e + 1 + 1074).toNat = (target m e + 1074).toNat + 1 := by omega
    rw [power, Nat.pow_succ']
    ring

theorem grains_shiftLeft (m : Nat) {e f : Int} (least : -1074 ≤ f) (below : f ≤ e) :
    grains (m <<< (e - f).toNat) f = grains m e := by
  unfold grains
  rw [Nat.shiftLeft_eq, Nat.mul_assoc, ← Nat.pow_add]
  congr 2
  omega

private theorem log2_shiftLeft {m : Nat} (pos : 0 < m) (j : Nat) : (m <<< j).log2 = m.log2 + j := by
  have grown := log2_grains pos (j - 1074)
  unfold grains at grown
  rw [sub_add_cancel, Int.toNat_natCast] at grown
  rw [Nat.shiftLeft_eq]
  exact grown

theorem round_spec (s : Sign) {m : Nat} (pos : 0 < m) {e : Int} (least : -1074 ≤ e) :
    ∃ m' e' pos', UnpackedFloat.round .binary64 s m e = .finite s m' e' pos' ∧ Canonical m' e' ∧
      grains m' e' = rounded (grains m e) := by
  obtain ⟨j, shift⟩ : ∃ j : Nat, (e - target m e).toNat = j := ⟨_, rfl⟩
  have known : -1074 ≤ target m e := le_max_right ..
  have longer : 0 < m <<< j := by
    rw [Nat.shiftLeft_eq]
    exact Nat.mul_pos pos (Nat.two_pow_pos _)
  have same : target (m <<< j) (e - j) = target m e := by
    unfold target
    rw [log2_shiftLeft pos]
    omega
  have spec := roundWithAccuracy_spec s longer (by omega : -1074 ≤ e - j) (by omega)
  have size := grains_shiftLeft m (by omega : -1074 ≤ e - j) (by omega : e - j ≤ e)
  have back : (e - (e - j)).toNat = j := by omega
  rw [back] at size
  rw [size] at spec
  -- A mantissa that is too short gets zeros first, so that its exponent is not above the one to round at.
  unfold UnpackedFloat.round
  rw [targetExponent_eq]
  unfold decreaseExponent
  dsimp only
  rw [shift]
  exact spec

/-! ### Places in the order of numbers -/

/-- The least size in grains that no double has. -/
def beyond : Nat := 2 ^ 2098

private theorem beyond_pos : 0 < beyond := by
  unfold beyond
  positivity

/-- The place of so many grains, as far as there are doubles. -/
def placeAt (k : Int) : Number.Place :=
  if k ≤ -beyond then .below else if beyond ≤ k then .above else .at (k / 2 ^ 1074)

/-- So many grains, cut to the leading places of their size. -/
def cut (k : Int) : Int := k.sign * rounded k.natAbs

def place : UnpackedFloat → Option Number.Place
  | .notANumber => none
  | .infinity .negative => some .below
  | .infinity .positive => some .above
  | .zero _ => some (.at 0)
  | .finite s m e _ => some (.at ((s.apply (grains m e) : Int) / 2 ^ 1074))

theorem scaled_eq (m : Nat) {e : Int} (least : -1074 ≤ e) : scaled m e = (grains m e : Rat) / 2 ^ 1074 := by
  have nonzero : (2 : Rat) ^ 1074 ≠ 0 := by positivity
  unfold scaled grains
  rw [eq_div_iff nonzero]
  split_ifs with whole
  · have power : (e + 1074).toNat = e.toNat + 1074 := by omega
    rw [power, Nat.cast_mul, Nat.cast_mul, pow_add, Nat.cast_mul, Nat.cast_pow, Nat.cast_pow, Nat.cast_ofNat, mul_assoc]
  · have power : 1074 = (-e).toNat + (e + 1074).toNat := by omega
    rw [Rat.mkRat_eq_div]
    have nonzero' : (2 : Rat) ^ (-e).toNat ≠ 0 := by positivity
    conv_lhs => rw [power]
    push_cast
    rw [pow_add, div_mul_eq_mul_div, mul_left_comm, mul_div_cancel_left₀ _ nonzero']

theorem place_float (x : Float) : (Number.float x).place? = place x.toModel.unpack := by
  have packed := packed_parts x
  rw [unpack_toModel]
  unfold Number.place?
  cases spelled : parts x with
  | nan => simp only [spelled]; rfl
  | infinite negative => cases negative <;> simp only [spelled] <;> rfl
  | finite negative m e =>
    have value : value? x = some (if negative then -scaled m e else scaled m e) := by
      unfold value?
      rw [spelled]
    simp only [spelled, value, Option.getD_some]
    rcases Nat.eq_zero_or_pos m with rfl | pos
    · have zero : scaled 0 e = 0 := by
        unfold scaled
        split_ifs
        · rw [Nat.zero_mul, Nat.cast_zero]
        · exact Rat.zero_mkRat _
      rw [zero, neg_zero, ite_self]
      rfl
    · rw [spelled, unpacked_finite _ pos] at packed
      rw [unpacked_finite _ pos, scaled_eq m packed.2.1]
      cases negative with
      | false => rfl
      | true =>
        show _ = some (Number.Place.at (((-(grains m e : Int) : Int) : Rat) / 2 ^ 1074))
        simp only [↓reduceIte]
        push_cast
        rw [neg_div]

theorem before_placeAt {k l : Int} (le : k ≤ l) : (placeAt l).before (placeAt k) = false := by
  unfold placeAt
  split_ifs
  any_goals rfl
  any_goals omega
  have quotients : (k : Rat) / 2 ^ 1074 ≤ (l : Rat) / 2 ^ 1074 := by
    gcongr
  exact decide_eq_false (not_lt_of_ge quotients)

theorem cut_natCast (k : Nat) : cut k = rounded k := by
  rcases Nat.eq_zero_or_pos k with rfl | pos
  · decide
  · unfold cut
    rw [Int.sign_natCast_of_ne_zero (Nat.ne_of_gt pos), one_mul, Int.natAbs_natCast]

theorem cut_neg (k : Int) : cut (-k) = -cut k := by
  unfold cut
  rw [Int.sign_neg, Int.natAbs_neg, Int.neg_mul]

theorem cut_apply (s : Sign) (k : Nat) : cut (s.apply k) = s.apply (rounded k) := by
  cases s with
  | positive => exact cut_natCast k
  | negative =>
    show cut (-(k : Int)) = -(rounded k : Int)
    rw [cut_neg, cut_natCast]

theorem cut_mono {k l : Int} (le : k ≤ l) : cut k ≤ cut l := by
  rcases Int.le_total 0 k with nonneg | nonpos
  · obtain ⟨m, rfl⟩ := Int.eq_ofNat_of_zero_le nonneg
    obtain ⟨n, rfl⟩ := Int.eq_ofNat_of_zero_le (Int.le_trans nonneg le)
    rw [cut_natCast, cut_natCast]
    exact_mod_cast rounded_mono (by exact_mod_cast le)
  · obtain ⟨m, rfl⟩ := Int.exists_eq_neg_ofNat nonpos
    rw [cut_neg, cut_natCast]
    rcases Int.le_total 0 l with above | below
    · obtain ⟨n, rfl⟩ := Int.eq_ofNat_of_zero_le above
      rw [cut_natCast]
      omega
    · obtain ⟨n, rfl⟩ := Int.exists_eq_neg_ofNat below
      have size : rounded n ≤ rounded m := rounded_mono (by omega)
      rw [cut_neg, cut_natCast]
      omega

/-! ### The difference -/

theorem rounded_of_canonical {m : Nat} (pos : 0 < m) {e : Int} (canonical : Canonical m e) :
    rounded (grains m e) = grains m e := by
  obtain ⟨short, least, long⟩ := canonical
  have places : m.log2 ≤ 52 := by
    have := (Nat.log2_lt (Nat.ne_of_gt pos)).mpr short
    omega
  have still : target m e = e := by
    unfold target
    rcases long with rfl | normal
    · omega
    · have full : 52 ≤ m.log2 := (Nat.le_log2 (Nat.ne_of_gt pos)).mpr normal
      omega
  have whole : m.log2 - 52 = 0 := by omega
  rw [rounded_grains pos least (le_of_eq still.symm), whole, Nat.pow_zero, roundQuotient_one, still]

private theorem grains_lt_pow_iff {m : Nat} {e : Int} (canonical : Canonical m e) {b : Nat} (last : b = 2098) :
    grains m e < 2 ^ b ↔ e ≤ 971 := by
  obtain ⟨short, least, long⟩ := canonical
  unfold grains
  constructor
  · intro less
    by_contra large
    have normal : 2 ^ 52 ≤ m := by omega
    have power : 2 ^ (b - 52) ≤ 2 ^ (e + 1074).toNat := Nat.pow_le_pow_right (by decide) (by omega)
    have more : 2 ^ 52 * 2 ^ (b - 52) ≤ m * 2 ^ (e + 1074).toNat := Nat.mul_le_mul normal power
    have split : 52 + (b - 52) = b := by omega
    rw [← Nat.pow_add, split] at more
    exact absurd less (Nat.not_lt.mpr more)
  · intro most
    have power : 2 ^ (e + 1074).toNat ≤ 2 ^ (b - 53) := Nat.pow_le_pow_right (by decide) (by omega)
    have split : 53 + (b - 53) = b := by omega
    calc m * 2 ^ (e + 1074).toNat < 2 ^ 53 * 2 ^ (e + 1074).toNat :=
          Nat.mul_lt_mul_of_pos_right short (Nat.two_pow_pos _)
      _ ≤ 2 ^ 53 * 2 ^ (b - 53) := Nat.mul_le_mul_left _ power
      _ = 2 ^ b := by rw [← Nat.pow_add, split]

private theorem grains_lt_beyond_iff {m : Nat} {e : Int} (canonical : Canonical m e) : grains m e < beyond ↔ e ≤ 971 :=
  grains_lt_pow_iff canonical rfl

private theorem place_pack (s : Sign) {m : Nat} (pos : 0 < m) {e : Int} (canonical : Canonical m e) :
    place (Float.Model.pack (.finite s m e pos)).unpack = some (placeAt (s.apply (grains m e))) := by
  have limit := grains_lt_beyond_iff canonical
  have positive := beyond_pos
  rcases Int.lt_or_le 971 e with large | most
  · have more : beyond ≤ grains m e := by omega
    rw [unpack_pack_of_large large]
    unfold placeAt
    cases s with
    | negative =>
      show some Number.Place.below = some (if -(grains m e : Int) ≤ -beyond then _ else _)
      rw [if_pos (by omega)]
    | positive =>
      show some Number.Place.above =
        some (if (grains m e : Int) ≤ -beyond then _ else if beyond ≤ (grains m e : Int) then _ else _)
      rw [if_neg (by omega), if_pos (by omega)]
  · have less := limit.mpr most
    have within : ¬ s.apply (grains m e) ≤ -beyond ∧ ¬ (beyond : Int) ≤ s.apply (grains m e) := by
      cases s <;> unfold Sign.apply <;> dsimp only <;> omega
    rw [unpack_pack (⟨canonical.1, canonical.2.1, most, canonical.2.2⟩ : Packed (.finite s m e pos))]
    unfold placeAt
    rw [if_neg within.1, if_neg within.2]
    rfl

private theorem place_pack_round (s : Sign) {m : Nat} (pos : 0 < m) {e : Int} (least : -1074 ≤ e) :
    place (Float.Model.pack (UnpackedFloat.round .binary64 s m e)).unpack = some (placeAt (cut (s.apply (grains m e)))) := by
  obtain ⟨m', e', pos', found, canonical, size⟩ := round_spec s pos least
  rw [found, place_pack s pos' canonical, size, cut_apply]

private theorem placeAt_zero : placeAt (cut 0) = .at 0 := by
  have positive := beyond_pos
  have zero : cut 0 = 0 := by decide
  rw [zero]
  unfold placeAt
  rw [if_neg (by omega), if_neg (by omega), Int.cast_zero, zero_div]

private theorem place_pack_normalize (k : Int) {e : Int} (least : -1074 ≤ e) :
    place (Float.Model.pack (UnpackedFloat.normalize .binary64 k e .positive)).unpack =
      some (placeAt (cut (k * 2 ^ (e + 1074).toNat))) := by
  unfold UnpackedFloat.normalize
  rcases Int.lt_trichotomy k 0 with negative | rfl | positive
  · obtain ⟨m, rfl⟩ := Int.exists_eq_neg_ofNat (le_of_lt negative)
    rw [compare_lt_iff_lt.mpr negative]
    dsimp only
    have found := place_pack_round .negative (by omega : 0 < m) least
    have size : Sign.negative.apply (grains m e) = -(m : Int) * 2 ^ (e + 1074).toNat := by
      show -((grains m e : Nat) : Int) = _
      unfold grains
      push_cast
      ring
    rw [size] at found
    rw [neg_neg, Int.toNat_natCast]
    exact found
  · rw [compare_eq_iff_eq.mpr rfl, zero_mul, placeAt_zero]
    dsimp only
    rw [unpack_pack_zero]
    rfl
  · obtain ⟨m, rfl⟩ := Int.eq_ofNat_of_zero_le (le_of_lt positive)
    rw [compare_gt_iff_gt.mpr positive]
    dsimp only
    have found := place_pack_round .positive (by omega : 0 < m) least
    have size : Sign.positive.apply (grains m e) = (m : Int) * 2 ^ (e + 1074).toNat := by
      show ((grains m e : Nat) : Int) = _
      unfold grains
      push_cast
      ring
    rw [size] at found
    rw [Int.toNat_natCast]
    exact found

def grainsOf : UnpackedFloat → Int
  | .finite s m e _ => s.apply (grains m e)
  | _ => 0

def IsFinite : UnpackedFloat → Prop
  | .zero _ | .finite .. => True
  | _ => False

variable {u v : UnpackedFloat}

private theorem canonical_of_packed {s : Sign} {m : Nat} {e : Int} {pos : 0 < m} (packed : Packed (.finite s m e pos)) :
    Canonical m e := ⟨packed.1, packed.2.1, packed.2.2.2⟩

private theorem place_pack_of_packed {s : Sign} {m : Nat} {e : Int} {pos : 0 < m} (packed : Packed (.finite s m e pos)) :
    place (Float.Model.pack (.finite s m e pos)).unpack = some (placeAt (cut (s.apply (grains m e)))) := by
  have canonical := canonical_of_packed packed
  rw [place_pack s pos canonical, cut_apply, rounded_of_canonical pos canonical]

private theorem apply_mul (s : Sign) (m n : Nat) : s.apply m * n = s.apply (m * n : Nat) := by
  cases s
  · show -(m : Int) * n = -((m * n : Nat) : Int)
    push_cast
    ring
  · show (m : Int) * n = ((m * n : Nat) : Int)
    push_cast
    ring

/-- The difference of two finite doubles is that of their grains, cut to its leading places. -/
theorem place_sub (left : Packed u) (right : Packed v) (finite : IsFinite u) (finite' : IsFinite v) :
    place (Float.Model.pack (UnpackedFloat.sub .binary64 u v)).unpack =
      some (placeAt (cut (grainsOf u - grainsOf v))) := by
  cases u with
  | notANumber => cases finite
  | infinity s => cases finite
  | zero s =>
    cases v with
    | notANumber => cases finite'
    | infinity t => cases finite'
    | zero t =>
      show _ = some (placeAt (cut (0 - 0)))
      rw [sub_zero, placeAt_zero]
      obtain ⟨sign, zero⟩ : ∃ sign, UnpackedFloat.sub .binary64 (.zero s) (.zero t) = .zero sign := by
        cases s <;> cases t <;> exact ⟨_, rfl⟩
      rw [zero, unpack_pack_zero]
      rfl
    | finite t n f pos =>
      have opposite : (-t).apply (grains n f) = 0 - t.apply (grains n f) := by
        cases t
        · show ((grains n f : Nat) : Int) = 0 - -((grains n f : Nat) : Int)
          omega
        · show -((grains n f : Nat) : Int) = 0 - ((grains n f : Nat) : Int)
          omega
      have found := @place_pack_of_packed (-t) n f pos right
      rw [opposite] at found
      exact found
  | finite s m e pos =>
    cases v with
    | notANumber => cases finite'
    | infinity t => cases finite'
    | zero t =>
      show _ = some (placeAt (cut (s.apply (grains m e) - 0)))
      rw [sub_zero]
      exact place_pack_of_packed left
    | finite t n f pos' =>
      have least : -1074 ≤ min e f := le_min left.2.1 right.2.1
      have sizes : (s.apply (m <<< (e - min e f).toNat : Nat) - t.apply (n <<< (f - min e f).toNat : Nat)) *
          ((2 ^ (min e f + 1074).toNat : Nat) : Int) = s.apply (grains m e) - t.apply (grains n f) := by
        rw [sub_mul, apply_mul, apply_mul, ← grains_shiftLeft m least (min_le_left e f),
          ← grains_shiftLeft n least (min_le_right e f)]
        rfl
      have found := place_pack_normalize
        (s.apply (m <<< (e - min e f).toNat : Nat) - t.apply (n <<< (f - min e f).toNat : Nat)) least
      rw [Nat.cast_pow, Nat.cast_ofNat] at sizes
      rw [sizes] at found
      exact found

/-! ### Later clock readings -/

private theorem place_of_finite (finite : IsFinite u) :
    place u = some (.at ((grainsOf u : Rat) / 2 ^ 1074)) := by
  cases u with
  | notANumber => cases finite
  | infinity s => cases finite
  | zero s =>
    show some (Number.Place.at 0) = some (.at (((0 : Int) : Rat) / 2 ^ 1074))
    rw [Int.cast_zero, zero_div]
  | finite s m e pos => rfl

theorem place_eq_cut (packed : Packed u) (finite : IsFinite u) : place u = some (placeAt (cut (grainsOf u))) := by
  cases u with
  | notANumber => cases finite
  | infinity s => cases finite
  | zero s => exact congrArg some placeAt_zero.symm
  | finite s m e pos =>
    have found := place_pack_of_packed packed
    rw [unpack_pack packed] at found
    exact found

private theorem grainsOf_lt_of_before {w : UnpackedFloat} (finite : IsFinite u) (finite' : IsFinite w) {p q : Number.Place}
    (left : place u = some p) (right : place w = some q) (before : p.before q = true) : grainsOf u < grainsOf w := by
  rw [place_of_finite finite] at left
  rw [place_of_finite finite'] at right
  cases left
  cases right
  have quotients : (grainsOf u : Rat) / 2 ^ 1074 < (grainsOf w : Rat) / 2 ^ 1074 := of_decide_eq_true before
  have positive : (0 : Rat) < 2 ^ 1074 := by positivity
  exact_mod_cast (div_lt_div_iff_of_pos_right positive).mp quotients

private theorem sub_infinity (finite : IsFinite u) (s : Sign) :
    UnpackedFloat.sub .binary64 u (.infinity s) = .infinity (-s) := by
  cases u with
  | notANumber => cases finite
  | infinity t => cases finite
  | zero t => rfl
  | finite t m e pos => rfl

private theorem infinity_sub (finite : IsFinite v) (s : Sign) :
    UnpackedFloat.sub .binary64 (.infinity s) v = .infinity s := by
  cases v with
  | notANumber => cases finite
  | infinity t => cases finite
  | zero t => rfl
  | finite t m e pos => rfl

private theorem place_pack_infinity (s : Sign) :
    place (Float.Model.pack (.infinity s)).unpack = place (.infinity s) := by
  rw [unpack_pack_infinity]

private theorem place_pack_nan : place (Float.Model.pack .notANumber).unpack = none := rfl

private theorem finite_or_infinite {p : Number.Place} (known : place u = some p) :
    IsFinite u ∨ (u = .infinity .negative ∧ p = .below) ∨ (u = .infinity .positive ∧ p = .above) := by
  cases u with
  | notANumber => cases known
  | zero s => exact .inl trivial
  | finite s m e pos => exact .inl trivial
  | infinity s =>
    cases s with
    | negative =>
      cases known
      exact .inr (.inl ⟨rfl, rfl⟩)
    | positive =>
      cases known
      exact .inr (.inr ⟨rfl, rfl⟩)

private theorem not_before_below (p : Number.Place) : p.before .below = false := by
  rcases p with _ | q | _ <;> rfl

/-- A larger first number makes no smaller difference, unless the smaller one makes minus infinity or no number. -/
theorem place_sub_mono {w : UnpackedFloat} (first : Packed u) (second : Packed w) (third : Packed v) {p p' q : Number.Place}
    (left : place u = some p) (right : place w = some p') (before : p.before p' = true)
    (found : place (Float.Model.pack (UnpackedFloat.sub .binary64 u v)).unpack = some q) (above : q ≠ .below) :
    ∃ q', place (Float.Model.pack (UnpackedFloat.sub .binary64 w v)).unpack = some q' ∧ q'.before q = false := by
  have infinite (top : UnpackedFloat.sub .binary64 w v = .infinity .positive) :
      ∃ q', place (Float.Model.pack (UnpackedFloat.sub .binary64 w v)).unpack = some q' ∧ q'.before q = false := by
    rw [top, place_pack_infinity]
    exact ⟨.above, rfl, rfl⟩
  have falls (bottom : UnpackedFloat.sub .binary64 u v = .infinity .negative) : False := by
    rw [bottom, place_pack_infinity] at found
    cases found
    exact above rfl
  have fails (nan : UnpackedFloat.sub .binary64 u v = .notANumber) : False := by
    rw [nan, place_pack_nan] at found
    cases found
  have notTop : p ≠ .above := by
    rintro rfl
    cases before
  have notBottom : p' ≠ .below := by
    rintro rfl
    rw [not_before_below] at before
    cases before
  cases known : place v with
  | none =>
    cases v with
    | notANumber => exact (fails (by cases u <;> rfl)).elim
    | infinity s => cases s <;> cases known
    | zero s => cases known
    | finite s m e pos => cases known
  | some r =>
    rcases finite_or_infinite known with finite'' | ⟨rfl, _⟩ | ⟨rfl, _⟩
    · rcases finite_or_infinite left with finite | ⟨rfl, _⟩ | ⟨_, top⟩
      · rcases finite_or_infinite right with finite' | ⟨_, bottom⟩ | ⟨rfl, _⟩
        · have less := grainsOf_lt_of_before finite finite' left right before
          rw [place_sub first third finite finite''] at found
          obtain rfl := Option.some.inj found
          exact ⟨_, place_sub second third finite' finite'', before_placeAt (cut_mono (by omega))⟩
        · exact absurd bottom notBottom
        · exact infinite (infinity_sub finite'' _)
      · exact (falls (infinity_sub finite'' _)).elim
      · exact absurd top notTop
    · rcases finite_or_infinite right with finite' | ⟨_, bottom⟩ | ⟨rfl, _⟩
      · exact infinite (sub_infinity finite' _)
      · exact absurd bottom notBottom
      · exact infinite rfl
    · rcases finite_or_infinite left with finite | ⟨rfl, _⟩ | ⟨rfl, _⟩
      · exact (falls (sub_infinity finite _)).elim
      · exact (falls rfl).elim
      · exact (fails rfl).elim

theorem before_of_not_before {p q r : Number.Place} (first : p.before q = true) (second : r.before q = false) :
    p.before r = true := by
  rcases p with _ | a | _ <;> rcases q with _ | b | _ <;> rcases r with _ | c | _ <;>
    simp_all [Number.Place.before]
  exact lt_of_lt_of_le first second

private theorem less_iff (a b : Number) :
    a.less b = true ↔ ∃ p q, a.place? = some p ∧ b.place? = some q ∧ p.before q = true := by
  unfold Number.less
  cases a.place? <;> cases b.place? <;> simp

/-! ### Differences beside doubles -/

/-- The grains of a double that is a rational number. -/
private theorem grains_of_value {x : Float} {q : Rat} (known : value? x = some q) :
    IsFinite x.toModel.unpack ∧ (grainsOf x.toModel.unpack : Rat) / 2 ^ 1074 = q := by
  have found := place_of_double known
  rw [place_float] at found
  rcases finite_or_infinite found with finite | ⟨_, ⟨⟩⟩ | ⟨_, ⟨⟩⟩
  rw [place_of_finite finite] at found
  cases found
  exact ⟨finite, rfl⟩

private theorem packed_toModel (x : Float) : Packed x.toModel.unpack := by
  rw [unpack_toModel]
  exact packed_parts x

/-- The difference of a double to itself is zero, or no number if the double is not finite. -/
theorem place_minus_self (x : Float) : (Number.float (x - x)).place? = (value? x).map fun _ => .at 0 := by
  rw [place_float]
  show place (Float.Model.pack (UnpackedFloat.sub .binary64 x.toModel.unpack x.toModel.unpack)).unpack = _
  cases known : value? x with
  | some q =>
    obtain ⟨finite, _⟩ := grains_of_value known
    rw [place_sub (packed_toModel x) (packed_toModel x) finite finite, sub_self, placeAt_zero, Option.map_some]
  | none =>
    unfold value? at known
    rw [unpack_toModel x]
    cases spelled : parts x with
    | nan => rfl
    | infinite negative => cases negative <;> rfl
    | finite negative m e =>
      rw [spelled] at known
      cases known

/-- A double that an exact difference does not fall below does not lie after the rounded one, and one that it does not rise
    above does not lie before. -/
theorem place_minus {x now since : Float} {t p q : Rat} (bound : value? x = some t) (current : value? now = some p)
    (past : value? since = some q) : ∃ place, (Number.float (now - since)).place? = some place ∧
      (p - q ≤ t → (Number.Place.at t).before place = false) ∧ (t ≤ p - q → place.before (.at t) = false) := by
  obtain ⟨finite, rfl⟩ := grains_of_value bound
  obtain ⟨finite', rfl⟩ := grains_of_value current
  obtain ⟨finite'', rfl⟩ := grains_of_value past
  have own := place_eq_cut (packed_toModel x) finite
  rw [place_of_finite finite, Option.some.injEq] at own
  have positive : (0 : Rat) < 2 ^ 1074 := by positivity
  refine ⟨_, (place_float (now - since)).trans (place_sub (packed_toModel now) (packed_toModel since) finite' finite''), ?_, ?_⟩
  · intro soon
    rw [← sub_div, div_le_div_iff_of_pos_right positive] at soon
    rw [own]
    exact before_placeAt (cut_mono (by exact_mod_cast soon))
  · intro late
    rw [← sub_div, div_le_div_iff_of_pos_right positive] at late
    rw [own]
    exact before_placeAt (cut_mono (by exact_mod_cast late))

variable {limit : Value}

/-- What is longer than a limit is no number below all others, and what does not lie before it is longer than the limit
    as well. -/
private theorem isLess_of_not_before {d d' : Number} (longer : limit.isLess d.toValue = .ok true)
    (above : ∀ q, d.place? = some q → q ≠ .below → ∃ q', d'.place? = some q' ∧ q'.before q = false) :
    limit.isLess d'.toValue = .ok true := by
  unfold Value.isLess at longer ⊢
  rw [Number.ofValue_toValue] at longer ⊢
  cases length : Number.ofValue limit with
  | error e =>
    rw [length] at longer
    cases longer
  | ok n =>
    rw [length] at longer
    obtain ⟨p, q, limited, found, before⟩ := (less_iff n d).mp (Except.ok.inj longer)
    have notBelow : q ≠ .below := by
      rintro rfl
      rw [not_before_below] at before
      cases before
    obtain ⟨q', found', notBefore⟩ := above q found notBelow
    exact congrArg Except.ok ((less_iff n d').mpr ⟨p, q', limited, found', before_of_not_before before notBefore⟩)

/-- If more than a limit has passed at a double clock reading, it has at every later one. -/
theorem exceeds_of_later_double {x y z : Float} (later : (Value.float x).isLess (.float y) = .ok true)
    (exceeded : Elapsed.exceeds limit (.float x) (.float z) = .ok true) :
    Elapsed.exceeds limit (.float y) (.float z) = .ok true := by
  obtain ⟨p, p', left, right, before⟩ := (less_iff _ _).mp (Except.ok.inj later)
  rw [place_float] at left right
  apply @isLess_of_not_before limit (.float (x - z)) (.float (y - z)) exceeded
  intro q found above
  rw [place_float] at found ⊢
  exact place_sub_mono (packed_toModel x) (packed_toModel y) (packed_toModel z) left right before found above

theorem exceeds_of_later_exact {readings : Set Value} (exact : Exact readings) {now later since : Value}
    (current : now ∈ readings) (next : later ∈ readings) (past : since ∈ readings) (known : now.rational?.isSome)
    (known' : later.rational?.isSome) (after : now.isLess later = .ok true)
    (exceeded : Elapsed.exceeds limit now since = .ok true) : Elapsed.exceeds limit later since = .ok true := by
  obtain ⟨p, first⟩ := Option.isSome_iff_exists.mp known
  obtain ⟨p', second⟩ := Option.isSome_iff_exists.mp known'
  obtain ⟨m, read, place⟩ := place_of_rational first
  obtain ⟨m', read', place'⟩ := place_of_rational second
  have order : p < p' := by
    unfold Value.isLess at after
    rw [read, read'] at after
    obtain ⟨q, q', found, found', before⟩ := (less_iff m m').mp (Except.ok.inj after)
    rw [place] at found
    rw [place'] at found'
    cases found
    cases found'
    exact of_decide_eq_true before
  obtain ⟨d, subtracted, size⟩ := exact now current since past
  obtain ⟨d', subtracted', size'⟩ := exact later next since past
  obtain ⟨n, number, place⟩ := place_of_rational size
  obtain ⟨n', number', place'⟩ := place_of_rational size'
  rw [exceeds_eq_isLess subtracted] at exceeded
  rw [exceeds_eq_isLess subtracted']
  have same {v : Value} {c : Number} (known : Number.ofValue v = .ok c) : limit.isLess v = limit.isLess c.toValue := by
    unfold Value.isLess
    rw [known, Number.ofValue_toValue]
  rw [same number] at exceeded
  rw [same number']
  apply isLess_of_not_before exceeded
  intro q found _
  rw [place] at found
  cases found
  refine ⟨_, place', decide_eq_false (not_lt_of_ge ?_)⟩
  unfold ExactClock.number
  rw [first, second]
  exact sub_le_sub_right (le_of_lt order) _

end CpuLoad.DoubleDifference
