import CpuLoad.Proofs.DoubleOrder

/-!
The order of the doubles nearest to quotients. The bits of the double nearest to a positive quotient are the place of its
last binary digit above the digits that are kept (`nearestBits_eq`), and a greater quotient does not have fewer of them
(`nearestBits_mono`). So rounding keeps the order of rational numbers (`nearest_mono`), and the double nearest to one of
at most one is at most one (`nearest_le_one`). It is zero or above exactly if the number does not lie further below zero
than half of the least double (`nearest_nonneg_iff`), and there is one exactly if the number lies less than half a last
place beyond the largest double (`nearest_eq_none_iff`).
-/
namespace CpuLoad.NearestDouble
open CpuLoad.Binary64 CpuLoad.DoubleOrder

/-! ### Rounding to an integer -/

theorem roundQuotient_le {n d q : Nat} (pos : 0 < d) (bound : n ≤ q * d) : roundQuotient n d ≤ q := by
  have quotient : n / d ≤ q := Nat.div_le_of_le_mul (by rw [Nat.mul_comm]; exact bound)
  have division := Nat.div_add_mod n d
  unfold roundQuotient
  dsimp only
  split_ifs with below above even
  · exact quotient
  · -- A remainder is left over, so the quotient is not the bound itself.
    rcases Nat.lt_or_eq_of_le quotient with less | same
    · exact less
    · rw [same, Nat.mul_comm] at division
      omega
  · exact quotient
  · rcases Nat.lt_or_eq_of_le quotient with less | same
    · exact less
    · rw [same, Nat.mul_comm] at division
      omega

theorem le_roundQuotient {n d q : Nat} (pos : 0 < d) (bound : q * d ≤ n) : q ≤ roundQuotient n d := by
  have quotient : q ≤ n / d := (Nat.le_div_iff_mul_le pos).mpr bound
  unfold roundQuotient
  dsimp only
  split_ifs <;> omega

theorem roundQuotient_mono {m n d : Nat} (pos : 0 < d) (le : m ≤ n) : roundQuotient m d ≤ roundQuotient n d := by
  rcases Nat.lt_or_eq_of_le (Nat.div_le_div_right le : m / d ≤ n / d) with less | same
  · have upper : roundQuotient m d ≤ n / d := by
      unfold roundQuotient
      dsimp only
      split_ifs <;> omega
    have lower : n / d ≤ roundQuotient n d := le_roundQuotient pos (Nat.div_mul_le_self n d)
    exact Nat.le_trans upper lower
  · have first := Nat.div_add_mod m d
    have second := Nat.div_add_mod n d
    rw [same] at first
    unfold roundQuotient
    rw [same]
    dsimp only
    split_ifs <;> omega

theorem roundQuotient_mul {m d c : Nat} (pos : 0 < c) : roundQuotient (m * c) (d * c) = roundQuotient m d := by
  unfold roundQuotient
  dsimp only
  have below : 2 * (m % d * c) < d * c ↔ 2 * (m % d) < d := by
    rw [← Nat.mul_assoc]
    exact Nat.mul_lt_mul_right pos
  have above : d * c < 2 * (m % d * c) ↔ d < 2 * (m % d) := by
    rw [← Nat.mul_assoc]
    exact Nat.mul_lt_mul_right pos
  rw [Nat.mul_div_mul_right m d pos, Nat.mul_mod_mul_right]
  simp only [below, above]

theorem roundQuotient_one (m : Nat) : roundQuotient m 1 = m := by
  simp [roundQuotient, Nat.mod_one]

/-- Rounding keeps the order of two quotients, also if their denominators differ. -/
theorem roundQuotient_le_roundQuotient {m c n d : Nat} (first : 0 < c) (second : 0 < d) (le : m * d ≤ n * c) :
    roundQuotient m c ≤ roundQuotient n d := by
  calc roundQuotient m c = roundQuotient (m * d) (c * d) := (roundQuotient_mul second).symm
    _ ≤ roundQuotient (n * c) (c * d) := roundQuotient_mono (Nat.mul_pos first second) le
    _ = roundQuotient (n * c) (d * c) := by rw [Nat.mul_comm c d]
    _ = roundQuotient n d := roundQuotient_mul first

theorem roundQuotient_eq_zero_iff {n d : Nat} (pos : 0 < d) : roundQuotient n d = 0 ↔ 2 * n ≤ d := by
  have division := Nat.div_add_mod n d
  have remainder := Nat.mod_lt n pos
  unfold roundQuotient
  dsimp only
  rcases Nat.eq_zero_or_pos (n / d) with zero | whole
  · rw [zero, Nat.mul_zero, Nat.zero_add] at division
    rw [zero, division]
    split_ifs <;> simp <;> omega
  · have large : d ≤ d * (n / d) := Nat.le_mul_of_pos_right d whole
    split_ifs <;> simp <;> omega

/-- An even integer is reached from half a unit below it on. -/
theorem le_roundQuotient_iff {n d q : Nat} (pos : 0 < d) (positive : 0 < q) (even : q % 2 = 0) :
    q ≤ roundQuotient n d ↔ (2 * q - 1) * d ≤ 2 * n := by
  have division := Nat.div_add_mod n d
  have remainder := Nat.mod_lt n pos
  have scaled : (2 * q - 1) * d = 2 * (d * (q - 1)) + d := by
    obtain ⟨k, rfl⟩ := Nat.exists_eq_add_of_lt positive
    simp only [Nat.zero_add, Nat.add_sub_cancel]
    rw [show 2 * (k + 1) - 1 = 2 * k + 1 by omega, Nat.add_mul, Nat.one_mul, Nat.mul_assoc, Nat.mul_comm k]
  rw [scaled]
  unfold roundQuotient
  dsimp only
  rcases Nat.lt_trichotomy (n / d) (q - 1) with below | same | above
  · have product : d * (n / d) + d ≤ d * (q - 1) := by
      rw [← Nat.mul_succ]
      exact Nat.mul_le_mul_left d below
    split_ifs <;> omega
  · rw [same] at division ⊢
    split_ifs <;> omega
  · have product : d * (q - 1) + d ≤ d * (n / d) := by
      rw [← Nat.mul_succ]
      exact Nat.mul_le_mul_left d above
    split_ifs <;> omega

/-! ### The power of two at or below a quotient -/

private theorem pow_log2_bounds {n : Nat} (pos : 0 < n) : 2 ^ n.log2 ≤ n ∧ n < 2 ^ (n.log2 + 1) :=
  (Nat.log2_eq_iff (Nat.ne_of_gt pos)).mp rfl

/-- The difference of the logarithms is the exponent or one too much, and a comparison tells which. -/
private theorem floorLog2_eq (n d : Nat) {k : Int} (difference : k = n.log2 - d.log2) :
    floorLog2 n d = if d * 2 ^ k.toNat ≤ n * 2 ^ (-k).toNat then k else k - 1 := by
  subst difference
  unfold floorLog2
  simp only [Int.ofNat_eq_natCast]
  generalize (n.log2 : Int) - (d.log2 : Int) = k
  by_cases nonneg : 0 ≤ k
  · have part : (-k).toNat = 0 := by omega
    simp only [nonneg, if_true, decide_eq_true_eq, part, Nat.pow_zero, Nat.mul_one]
  · have whole : k.toNat = 0 := by omega
    simp only [nonneg, if_false, decide_eq_true_eq, whole, Nat.pow_zero, Nat.mul_one]

/-- The exponents up to that of a quotient are those of the powers at or below it. -/
theorem le_floorLog2_iff {n d a b : Nat} (numerator : 0 < n) (denominator : 0 < d) :
    (a : Int) - b ≤ floorLog2 n d ↔ d * 2 ^ a ≤ n * 2 ^ b := by
  obtain ⟨least, most⟩ := pow_log2_bounds numerator
  obtain ⟨least', most'⟩ := pow_log2_bounds denominator
  obtain ⟨k, difference⟩ : ∃ k : Int, k = n.log2 - d.log2 := ⟨_, rfl⟩
  rw [floorLog2_eq n d difference]
  -- The logarithms alone decide, unless their difference is the exponent that is asked for.
  rcases Int.lt_trichotomy (a - b) k with below | same | above
  · have reached : d * 2 ^ a ≤ n * 2 ^ b := by
      calc d * 2 ^ a ≤ 2 ^ (d.log2 + 1) * 2 ^ a := Nat.mul_le_mul_right _ (Nat.le_of_lt most')
        _ = 2 ^ (d.log2 + 1 + a) := (Nat.pow_add ..).symm
        _ ≤ 2 ^ (n.log2 + b) := Nat.pow_le_pow_right (by decide) (by omega)
        _ = 2 ^ n.log2 * 2 ^ b := Nat.pow_add ..
        _ ≤ n * 2 ^ b := Nat.mul_le_mul_right _ least
    exact iff_of_true (by split_ifs <;> omega) reached
  · obtain ⟨j, rfl, rfl⟩ : ∃ j, a = k.toNat + j ∧ b = (-k).toNat + j := ⟨a - k.toNat, by omega, by omega⟩
    have scaled : d * 2 ^ (k.toNat + j) ≤ n * 2 ^ ((-k).toNat + j) ↔ d * 2 ^ k.toNat ≤ n * 2 ^ (-k).toNat := by
      rw [Nat.pow_add, Nat.pow_add, ← Nat.mul_assoc, ← Nat.mul_assoc]
      exact Nat.mul_le_mul_right_iff (Nat.two_pow_pos j)
    rw [scaled, same]
    split_ifs with reached
    · exact iff_of_true (le_refl k) reached
    · exact iff_of_false (by omega) reached
  · have missed : n * 2 ^ b < d * 2 ^ a := by
      calc n * 2 ^ b < 2 ^ (n.log2 + 1) * 2 ^ b := Nat.mul_lt_mul_of_pos_right most (Nat.two_pow_pos b)
        _ = 2 ^ (n.log2 + 1 + b) := (Nat.pow_add ..).symm
        _ ≤ 2 ^ (d.log2 + a) := Nat.pow_le_pow_right (by decide) (by omega)
        _ = 2 ^ d.log2 * 2 ^ a := Nat.pow_add ..
        _ ≤ d * 2 ^ a := Nat.mul_le_mul_right _ least'
    exact iff_of_false (by split_ifs <;> omega) (Nat.not_le.mpr missed)

theorem floorLog2_lt_iff {n d a b : Nat} (numerator : 0 < n) (denominator : 0 < d) :
    floorLog2 n d < (a : Int) - b ↔ n * 2 ^ b < d * 2 ^ a := by
  rw [← Int.not_le, ← Nat.not_le, le_floorLog2_iff numerator denominator]

theorem floorLog2_mono {m c n d : Nat} (numerator : 0 < m) (first : 0 < c) (second : 0 < d) (le : m * d ≤ n * c) :
    floorLog2 m c ≤ floorLog2 n d := by
  have positive : 0 < n := Nat.pos_of_mul_pos_right (Nat.lt_of_lt_of_le (Nat.mul_pos numerator second) le)
  obtain ⟨a, b, exponent⟩ : ∃ a b : Nat, floorLog2 m c = (a : Int) - b :=
    ⟨(floorLog2 m c).toNat, (-floorLog2 m c).toNat, by omega⟩
  rw [exponent, le_floorLog2_iff positive second]
  have reached : c * 2 ^ a ≤ m * 2 ^ b := (le_floorLog2_iff numerator first).mp (le_of_eq exponent.symm)
  have scaled : c * (d * 2 ^ a) ≤ c * (n * 2 ^ b) := by
    calc c * (d * 2 ^ a) = c * 2 ^ a * d := by ring
      _ ≤ m * 2 ^ b * d := Nat.mul_le_mul_right d reached
      _ = m * d * 2 ^ b := by ring
      _ ≤ n * c * 2 ^ b := Nat.mul_le_mul_right _ le
      _ = c * (n * 2 ^ b) := by ring
  exact Nat.le_of_mul_le_mul_left scaled first

/-! ### The bits of the nearest double -/

section
variable {n d : Nat} {e : Int}

/-- The binary digits of a quotient up to the place worth `2 ^ e`, with the rest rounded off. -/
def digits (n d : Nat) (e : Int) : Nat := roundQuotient (n * 2 ^ (-e).toNat) (d * 2 ^ e.toNat)

theorem digits_natCast (n d e : Nat) : digits n d e = roundQuotient n (d * 2 ^ e) := by
  simp [digits]

theorem digits_neg_natCast (n d s : Nat) : digits n d (-s) = roundQuotient (n * 2 ^ s) d := by
  simp [digits]

/-- A positive quotient has the place of its last digit above its digits, as a sum that carries. -/
theorem nearestBits_eq (numerator : 0 < n) (place : e = max (floorLog2 n d - 52) (-1074)) :
    nearestBits n d = (e + 1074).toNat * 2 ^ 52 + digits n d e := by
  subst place
  unfold nearestBits digits
  rw [if_neg (Nat.ne_of_gt numerator)]
  dsimp only
  split_ifs with nonneg
  · have part : (-(max (floorLog2 n d - 52) (-1074))).toNat = 0 := by omega
    rw [part, Nat.pow_zero, Nat.mul_one]
  · have whole : (max (floorLog2 n d - 52) (-1074)).toNat = 0 := by omega
    rw [whole, Nat.pow_zero, Nat.mul_one]

theorem digits_le (numerator : 0 < n) (denominator : 0 < d) (place : e = max (floorLog2 n d - 52) (-1074)) :
    digits n d e ≤ 2 ^ 53 := by
  have below : n * 2 ^ (-e).toNat < d * 2 ^ (e.toNat + 53) := (floorLog2_lt_iff numerator denominator).mp (by omega)
  refine roundQuotient_le (Nat.mul_pos denominator (Nat.two_pow_pos _)) (Nat.le_of_lt ?_)
  rwa [Nat.mul_left_comm, ← Nat.pow_add, Nat.add_comm]

/-- Only at the least place there is may the leading digit be missing. -/
theorem le_digits (numerator : 0 < n) (denominator : 0 < d) (exponent : floorLog2 n d = e + 52) :
    2 ^ 52 ≤ digits n d e := by
  have reached : d * 2 ^ (e.toNat + 52) ≤ n * 2 ^ (-e).toNat := (le_floorLog2_iff numerator denominator).mp (by omega)
  refine le_roundQuotient (Nat.mul_pos denominator (Nat.two_pow_pos _)) ?_
  rwa [Nat.mul_left_comm, ← Nat.pow_add, Nat.add_comm]

end

/-- A greater quotient does not have fewer bits. -/
theorem nearestBits_mono {m c n d : Nat} (first : 0 < c) (second : 0 < d) (le : m * d ≤ n * c) :
    nearestBits m c ≤ nearestBits n d := by
  rcases Nat.eq_zero_or_pos m with rfl | numerator
  · exact Nat.zero_le _
  have positive : 0 < n := Nat.pos_of_mul_pos_right (Nat.lt_of_lt_of_le (Nat.mul_pos numerator second) le)
  have exponents := floorLog2_mono numerator first second le
  obtain ⟨e, place⟩ : ∃ e, e = max (floorLog2 m c - 52) (-1074) := ⟨_, rfl⟩
  obtain ⟨f, place'⟩ : ∃ f, f = max (floorLog2 n d - 52) (-1074) := ⟨_, rfl⟩
  rw [nearestBits_eq numerator place, nearestBits_eq positive place']
  rcases Int.lt_or_eq_of_le (by omega : e ≤ f) with less | rfl
  · -- The place of the greater one alone is worth as much as a carry of the other's digits.
    have carry := digits_le numerator first place
    have leading := le_digits positive second (e := f) (by omega)
    omega
  · refine Nat.add_le_add_left (roundQuotient_le_roundQuotient ?_ ?_ ?_) _
    · exact Nat.mul_pos first (Nat.two_pow_pos _)
    · exact Nat.mul_pos second (Nat.two_pow_pos _)
    · rw [Nat.mul_mul_mul_comm m, Nat.mul_mul_mul_comm n]
      exact Nat.mul_le_mul_right _ le

/-- A quotient of at most one has a double of at most one. -/
theorem nearestBits_le_one {n d : Nat} (denominator : 0 < d) (bound : n ≤ d) :
    nearestBits n d ≤ 1023 * 2 ^ 52 := by
  have one : nearestBits 1 1 = 1023 * 2 ^ 52 := by decide
  rw [← one]
  exact nearestBits_mono denominator Nat.one_pos (by omega)

/-- A quotient has the double zero exactly if it does not lie beyond half of the least double. -/
theorem nearestBits_eq_zero_iff {n d : Nat} (denominator : 0 < d) : nearestBits n d = 0 ↔ n * 2 ^ 1075 ≤ d := by
  rcases Nat.eq_zero_or_pos n with rfl | numerator
  · rw [Nat.zero_mul]
    exact ⟨fun _ => Nat.zero_le d, fun _ => rfl⟩
  obtain ⟨e, place⟩ : ∃ e, e = max (floorLog2 n d - 52) (-1074) := ⟨_, rfl⟩
  rw [nearestBits_eq numerator place]
  rcases Int.lt_or_le (-1022) (floorLog2 n d) with above | least
  · -- The exponent alone makes the bits positive.
    have large : d * 2 ^ 0 ≤ n * 2 ^ 1021 := (le_floorLog2_iff numerator denominator).mp (by omega)
    have powers : 2 ^ 1021 < 2 ^ 1075 := pow_lt_pow_right₀ (by decide) (by decide)
    have grown : n * 2 ^ 1021 < n * 2 ^ 1075 := (Nat.mul_lt_mul_left numerator).mpr powers
    rw [Nat.pow_zero, Nat.mul_one] at large
    exact iff_of_false (by omega) (Nat.not_le.mpr (lt_of_le_of_lt large grown))
  · obtain rfl : e = -((1074 : Nat) : Int) := by omega
    have doubled : n * 2 ^ 1075 = 2 * (n * 2 ^ 1074) := by rw [pow_succ' 2 1074, Nat.mul_left_comm]
    have least : (-((1074 : Nat) : Int) + 1074).toNat = 0 := by decide
    rw [least, Nat.zero_mul, Nat.zero_add, digits_neg_natCast, roundQuotient_eq_zero_iff denominator, doubled]

/-- A quotient has more bits than the finite doubles exactly from half a last place beyond the largest one on. -/
theorem infinityBits_le_iff {n d : Nat} (denominator : 0 < d) :
    infinityBits ≤ nearestBits n d ↔ d * (2 ^ 1024 - 2 ^ 970) ≤ n := by
  have size : (2 : Nat) ^ 1023 ≤ 2 ^ 1024 - 2 ^ 970 ∧ (2 : Nat) ^ 1024 - 2 ^ 970 ≤ 2 ^ 1024 := by decide +kernel
  rcases Nat.eq_zero_or_pos n with rfl | numerator
  · have positive : 0 < d * (2 ^ 1024 - 2 ^ 970) := Nat.mul_pos denominator (lt_of_lt_of_le (Nat.two_pow_pos _) size.1)
    exact iff_of_false (by simp [nearestBits, infinityBits]) (Nat.not_le.mpr positive)
  obtain ⟨e, place⟩ : ∃ e, e = max (floorLog2 n d - 52) (-1074) := ⟨_, rfl⟩
  have most := digits_le numerator denominator place
  rw [nearestBits_eq numerator place]
  unfold infinityBits
  rcases Int.lt_trichotomy e (971 : Nat) with less | rfl | more
  · have below : n * 2 ^ 0 < d * 2 ^ 1023 := (floorLog2_lt_iff numerator denominator).mp (by omega)
    rw [Nat.pow_zero, Nat.mul_one] at below
    exact iff_of_false (by omega) (Nat.not_le.mpr (lt_of_lt_of_le below (Nat.mul_le_mul_left d size.1)))
  · have positive : 0 < d * 2 ^ 971 := by positivity
    have reached := le_roundQuotient_iff (n := n) (q := 2 ^ 53) positive (by decide) (by decide)
    have half : (2 * 2 ^ 53 - 1) * 2 ^ 971 = 2 * (2 ^ 1024 - 2 ^ 970) := by decide +kernel
    rw [Nat.mul_left_comm, half, Nat.mul_left_comm, Nat.mul_le_mul_left_iff two_pos] at reached
    rw [digits_natCast, ← reached]
    omega
  · have leading := le_digits numerator denominator (e := e) (by omega)
    have beyond : d * 2 ^ 1024 ≤ n * 2 ^ 0 := (le_floorLog2_iff numerator denominator).mp (by omega)
    rw [Nat.pow_zero, Nat.mul_one] at beyond
    exact iff_of_true (by omega) (le_trans (Nat.mul_le_mul_left d size.2) beyond)

/-! ### The nearest double -/

variable {q : Rat} {x : Float}

private theorem nearest_eq_some (found : nearest? q = some x) :
    nearestBits q.num.natAbs q.den < infinityBits ∧ x = ofBits (decide (q.num < 0)) (nearestBits q.num.natAbs q.den) := by
  unfold nearest? at found
  dsimp only at found
  split_ifs at found with bound
  exact ⟨bound, (Option.some.inj found).symm⟩

theorem isNaN_nearest (found : nearest? q = some x) : x.isNaN = false := by
  obtain ⟨bound, rfl⟩ := nearest_eq_some found
  exact isNaN_ofBits bound

private theorem rank_nearest (found : nearest? q = some x) :
    rank x = if q.num < 0 then -(nearestBits q.num.natAbs q.den : Int) else nearestBits q.num.natAbs q.den := by
  obtain ⟨bound, rfl⟩ := nearest_eq_some found
  rw [rank_ofBits bound]
  simp only [decide_eq_true_eq]

/-- The doubles nearest to two numbers have the order of the numbers. -/
theorem nearest_mono {p q : Rat} {x y : Float} (le : p ≤ q) (first : nearest? p = some x) (second : nearest? q = some y) :
    x ≤ y := by
  have products : p.num * q.den ≤ q.num * p.den := (Rat.le_iff p q).mp le
  rw [le_iff (isNaN_nearest first) (isNaN_nearest second), rank_nearest first, rank_nearest second]
  split_ifs with below below' below'
  · -- Below zero the bits are those of the size, and the order turns round.
    have sizes : q.num.natAbs * p.den ≤ p.num.natAbs * q.den := by
      zify
      rw [abs_of_neg below, abs_of_neg below', neg_mul, neg_mul]
      exact neg_le_neg products
    have bits := nearestBits_mono q.pos p.pos sizes
    omega
  · omega
  · have sign : p < 0 := lt_of_le_of_lt le (Rat.num_neg.mp below')
    exact absurd (Rat.num_neg.mpr sign) below
  · have sizes : p.num.natAbs * q.den ≤ q.num.natAbs * p.den := by
      zify
      rw [abs_of_nonneg (Int.not_lt.mp below), abs_of_nonneg (Int.not_lt.mp below')]
      exact products
    have bits := nearestBits_mono p.pos q.pos sizes
    omega

theorem nearest_le_one (found : nearest? q = some x) (bound : q ≤ 1) : x ≤ 1.0 := by
  have one : nearest? 1 = some 1.0 := by decide
  exact nearest_mono bound found one

/-- A number between zero and one has a nearest double. -/
theorem exists_nearest (nonneg : 0 ≤ q) (bound : q ≤ 1) : ∃ x, nearest? q = some x := by
  have integers := Rat.num_le_denom_iff.mpr bound
  have sign := Rat.num_nonneg.mpr nonneg
  have bits := nearestBits_le_one q.pos (n := q.num.natAbs) (by omega)
  have finite : nearestBits q.num.natAbs q.den < infinityBits := by
    unfold infinityBits
    omega
  exact ⟨_, if_pos finite⟩

/-- The numbers without a nearest double lie half a last place beyond the largest double, or further. -/
theorem nearest_eq_none_iff : nearest? q = none ↔ ((2 ^ 1024 - 2 ^ 970 : Nat) : Rat) ≤ |q| := by
  have positive : (0 : Rat) < q.den := by exact_mod_cast q.pos
  have size : |q| = (q.num.natAbs : Rat) / q.den := by
    rw [Nat.cast_natAbs, Int.cast_abs, ← Nat.abs_cast q.den, ← abs_div, Rat.num_div_den]
  rw [size, le_div_iff₀ positive, mul_comm, ← Nat.cast_mul, Nat.cast_le, ← infinityBits_le_iff q.pos]
  unfold nearest?
  dsimp only
  split_ifs with finite
  · exact iff_of_false id (Nat.not_le.mpr finite)
  · exact iff_of_true rfl (Nat.not_lt.mp finite)

private theorem neg_one_le_mul_pow_iff (q : Rat) (s : Nat) : -1 ≤ q * 2 ^ s ↔ -(q.den : Int) ≤ q.num * 2 ^ s := by
  have positive : (0 : Rat) < q.den := by exact_mod_cast q.pos
  have product : q * 2 ^ s * q.den = q.num * 2 ^ s := by rw [mul_right_comm, Rat.mul_den_eq_num]
  rw [← mul_le_mul_iff_of_pos_right positive, product, neg_one_mul]
  exact_mod_cast Iff.rfl

/-- A number so little below zero that half of the least double reaches it has a zero for its double. -/
theorem nearest_nonneg_iff (found : nearest? q = some x) : 0.0 ≤ x ↔ -1 ≤ q * 2 ^ 1075 := by
  rw [le_iff rfl (isNaN_nearest found), rank_zero, rank_nearest found, neg_one_le_mul_pow_iff]
  split_ifs with negative
  · have bits := nearestBits_eq_zero_iff (n := q.num.natAbs) q.pos
    have size (s : Nat) : q.num * 2 ^ s = -((q.num.natAbs * 2 ^ s : Nat) : Int) := by
      rw [Nat.cast_mul, Int.ofNat_natAbs_of_nonpos (le_of_lt negative), Int.neg_mul, neg_neg]
      push_cast
      rfl
    rw [size]
    generalize q.num.natAbs * 2 ^ 1075 = large at bits
    omega
  · have positive : 0 ≤ q.num * 2 ^ 1075 := Int.mul_nonneg (by omega) (by positivity)
    exact ⟨fun _ => by omega, fun _ => by omega⟩

end CpuLoad.NearestDouble
