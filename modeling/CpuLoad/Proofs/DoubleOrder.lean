import CpuLoad.Binary64
import Mathlib

/-!
The order of doubles is the order of their bits: a double has a place among all doubles, the bits of its size counted
upwards or downwards by its sign (`rank`), and two doubles that are numbers compare as their places do (`lt_iff`,
`le_iff`). The parts that are read off the bits are those that the arithmetic of doubles works with (`unpack_toModel`),
and bits below those of infinity are kept (`parts_ofBits`, `rank_ofBits`).
-/
namespace CpuLoad.DoubleOrder
open CpuLoad.Binary64
open Float.Model (UnpackedFloat Format)
open Float.Model.UnpackedFloat (Sign packComponents unpackMantissa unpackExponent unpackSign)

/-! ### Fields of the bits -/

private theorem toNat_unpackMantissa (b : BitVec 64) :
    (@unpackMantissa .binary64 b).toNat = b.toNat % 2 ^ 52 := by
  simp [unpackMantissa, BitVec.extractLsb]

private theorem toNat_unpackExponent (b : BitVec 64) :
    (@unpackExponent .binary64 b).toNat = b.toNat / 2 ^ 52 % 2 ^ 11 := by
  simp [unpackExponent, BitVec.extractLsb, Nat.shiftRight_eq_div_pow]

private theorem toNat_unpackSign (b : BitVec 64) : (@unpackSign .binary64 b).toNat = b.toNat / 2 ^ 63 := by
  have bound : b.toNat < 2 ^ 64 := b.isLt
  simp [unpackSign, BitVec.extractLsb, Nat.shiftRight_eq_div_pow]
  omega

private theorem unpackExponent_eq_full (b : BitVec 64) :
    @unpackExponent .binary64 b = -1#11 ↔ b.toNat / 2 ^ 52 % 2 ^ 11 = 2047 := by
  rw [← BitVec.toNat_inj, toNat_unpackExponent]
  rfl

private theorem unpackExponent_eq_zero (b : BitVec 64) :
    @unpackExponent .binary64 b = 0#11 ↔ b.toNat / 2 ^ 52 % 2 ^ 11 = 0 := by
  rw [← BitVec.toNat_inj, toNat_unpackExponent]
  rfl

private theorem unpackMantissa_eq_zero (b : BitVec 64) :
    @unpackMantissa .binary64 b = 0#52 ↔ b.toNat % 2 ^ 52 = 0 := by
  rw [← BitVec.toNat_inj, toNat_unpackMantissa]
  rfl

private theorem toNat_one_append (v : BitVec 52) : (1#1 ++ v).toNat = 2 ^ 52 + v.toNat := by
  rw [BitVec.toNat_append, ← Nat.shiftLeft_add_eq_or_of_lt v.isLt]
  simp [Nat.shiftLeft_eq]

/-- The sign that a truth value stands for. -/
def signOf (negative : Bool) : Sign := if negative then .negative else .positive

private theorem toNat_signOf (bits : Nat) (bound : bits < 2 ^ 64) :
    (signOf (decide (2 ^ 63 ≤ bits))).toBitVec.toNat = bits / 2 ^ 63 := by
  by_cases high : 2 ^ 63 ≤ bits
  · simp only [signOf, high, decide_true, ↓reduceIte, Sign.toBitVec, BitVec.toNat_ofNat]
    omega
  · simp only [signOf, high, decide_false, Bool.false_eq_true, ↓reduceIte, Sign.toBitVec, BitVec.toNat_ofNat]
    omega

private theorem ofBitVec_unpackSign (b : BitVec 64) :
    Sign.ofBitVec (@unpackSign .binary64 b) = signOf (decide (2 ^ 63 ≤ b.toNat)) := by
  have sign := toNat_unpackSign b
  have bound : b.toNat < 2 ^ 64 := b.isLt
  unfold Sign.ofBitVec signOf
  by_cases high : 2 ^ 63 ≤ b.toNat
  · have one : @unpackSign .binary64 b ≠ 0#1 := by
      intro zero
      rw [zero] at sign
      simp at sign
      omega
    simp only [one, high, decide_true, ↓reduceIte]
  · have zero : @unpackSign .binary64 b = 0#1 := by
      apply BitVec.eq_of_toNat_eq
      rw [sign]
      simp
      omega
    simp only [zero, high, decide_false, ↓reduceIte, Bool.false_eq_true]

/-! ### Parts -/

/-- A double taken apart, as the arithmetic of doubles has it. -/
def unpacked : Parts → UnpackedFloat
  | .nan => .notANumber
  | .infinite negative => .infinity (signOf negative)
  | .finite negative m e =>
    if h : m = 0 then .zero (signOf negative) else .finite (signOf negative) m e (Nat.pos_of_ne_zero h)

theorem unpacked_zero (negative : Bool) (e : Int) : unpacked (.finite negative 0 e) = .zero (signOf negative) := rfl

theorem unpacked_finite (negative : Bool) {m : Nat} (pos : 0 < m) (e : Int) :
    unpacked (.finite negative m e) = .finite (signOf negative) m e pos :=
  dif_neg (Nat.ne_of_gt pos)

/-- The parts read off the bits of a double are those that its arithmetic works with. -/
theorem unpack_toModel (x : Float) : x.toModel.unpack = unpacked (parts x) := by
  have full := unpackExponent_eq_full x.toModel.toBits.toBitVec
  have empty := unpackExponent_eq_zero x.toModel.toBits.toBitVec
  have blank := unpackMantissa_eq_zero x.toModel.toBits.toBitVec
  have bias : Format.binary64.exponentBias = 1023 := rfl
  unfold parts Float.toBits Float.Model.unpack UnpackedFloat.unpack
  simp only [full, empty, blank, ofBitVec_unpackSign, toNat_unpackExponent, toNat_unpackMantissa, toNat_one_append,
    UInt64.toNat_toBitVec]
  split_ifs with special exact small zero
  · rfl
  · rfl
  · rw [zero, unpacked_zero]
  · rw [unpacked_finite _ (Nat.pos_of_ne_zero zero)]
    simp only [small, bias]
    rfl
  · rw [unpacked_finite _ (by omega)]
    simp only [bias]
    rfl

/-- Mantissa and exponent are within the bounds of a double, and the mantissa is as long as the exponent lets it be. -/
def Packed : UnpackedFloat → Prop
  | .finite _ m e _ => m < 2 ^ 53 ∧ -1074 ≤ e ∧ e ≤ 971 ∧ (e = -1074 ∨ 2 ^ 52 ≤ m)
  | _ => True

theorem packed_parts (x : Float) : Packed (unpacked (parts x)) := by
  have bound : x.toBits.toNat < 2 ^ 64 := x.toBits.toNat_lt
  unfold parts
  dsimp only
  split_ifs with special exact small
  · trivial
  · trivial
  · rcases Nat.eq_zero_or_pos (x.toBits.toNat % 2 ^ 52) with zero | pos
    · rw [zero]
      trivial
    · rw [unpacked_finite _ pos]
      exact ⟨by omega, by omega, by omega, .inl rfl⟩
  · rw [unpacked_finite _ (by omega), Int.ofNat_eq_natCast]
    exact ⟨by omega, by omega, by omega, .inr (by omega)⟩

/-! ### Places among the doubles -/

/-- The place of a number that is taken apart: the bits of its size, with its sign. -/
def rankOf : UnpackedFloat → Int
  | .notANumber => 0
  | .infinity s => s.apply infinityBits
  | .zero _ => 0
  | .finite s m e _ => s.apply ((e + 1074) * 2 ^ 52 + m)

/-- The place of a double among the doubles. -/
def rank (x : Float) : Int := rankOf x.toModel.unpack

/-- The order of exponents, then of mantissas, is the order of the bits. -/
private theorem compare_then {m n : Nat} {e f : Int}
    (left : m < 2 ^ 53 ∧ -1074 ≤ e ∧ e ≤ 971 ∧ (e = -1074 ∨ 2 ^ 52 ≤ m))
    (right : n < 2 ^ 53 ∧ -1074 ≤ f ∧ f ≤ 971 ∧ (f = -1074 ∨ 2 ^ 52 ≤ n)) :
    (compare e f).then (compare m n) = compare ((e + 1074) * 2 ^ 52 + (m : Int)) ((f + 1074) * 2 ^ 52 + (n : Int)) := by
  rcases Int.lt_trichotomy e f with less | same | more
  · have order : (e + 1074) * 2 ^ 52 + (m : Int) < (f + 1074) * 2 ^ 52 + (n : Int) := by omega
    rw [compare_lt_iff_lt.mpr less, compare_lt_iff_lt.mpr order]
    rfl
  · subst same
    rw [compare_eq_iff_eq.mpr rfl]
    show compare m n = _
    rcases Nat.lt_trichotomy m n with less | same | more
    · rw [compare_lt_iff_lt.mpr less, eq_comm, compare_lt_iff_lt]
      omega
    · subst same
      rw [compare_eq_iff_eq.mpr rfl, compare_eq_iff_eq.mpr rfl]
    · rw [compare_gt_iff_gt.mpr more, eq_comm, compare_gt_iff_gt]
      omega
  · have order : (f + 1074) * 2 ^ 52 + (n : Int) < (e + 1074) * 2 ^ 52 + (m : Int) := by omega
    rw [compare_gt_iff_gt.mpr more, compare_gt_iff_gt.mpr order]
    rfl

private theorem swap_compare (a b : Int) : (compare a b).swap = compare (-a) (-b) := by
  rw [Int.compare_swap]
  rcases Int.lt_trichotomy a b with less | same | more
  · rw [compare_gt_iff_gt.mpr less, eq_comm, compare_gt_iff_gt]
    omega
  · subst same
    rw [compare_eq_iff_eq.mpr rfl, compare_eq_iff_eq.mpr rfl]
  · rw [compare_lt_iff_lt.mpr more, eq_comm, compare_lt_iff_lt]
    omega

/-- A finite number that is not zero lies on its side of zero and this side of infinity. -/
private theorem rankOf_finite_bounds {s : Sign} {m : Nat} {e : Int} {pos : 0 < m}
    (packed : Packed (.finite s m e pos)) :
    (s = .positive → 0 < rankOf (.finite s m e pos)) ∧ (s = .negative → rankOf (.finite s m e pos) < 0) ∧
      -(infinityBits : Int) < rankOf (.finite s m e pos) ∧ rankOf (.finite s m e pos) < infinityBits := by
  obtain ⟨_, least, most, _⟩ := packed
  have top : (infinityBits : Int) = 2047 * 2 ^ 52 := rfl
  rw [top]
  cases s
  · exact ⟨by simp, by simp only [rankOf, Sign.apply]; omega, by simp only [rankOf, Sign.apply]; omega,
      by simp only [rankOf, Sign.apply]; omega⟩
  · exact ⟨by simp only [rankOf, Sign.apply]; omega, by simp, by simp only [rankOf, Sign.apply]; omega,
      by simp only [rankOf, Sign.apply]; omega⟩

/-- Numbers that are taken apart compare as their places do. -/
private theorem compare_eq {a b : UnpackedFloat} (left : Packed a) (right : Packed b) (number : a.isNaN = false)
    (number' : b.isNaN = false) : a.compare b = some (compare (rankOf a) (rankOf b)) := by
  have below {x y : Int} (less : x < y) : some Ordering.lt = some (compare x y) := by
    rw [compare_lt_iff_lt.mpr less]
  have above {x y : Int} (more : y < x) : some Ordering.gt = some (compare x y) := by
    rw [compare_gt_iff_gt.mpr more]
  cases a with
  | notANumber => cases number
  | infinity s =>
    cases b with
    | notANumber => cases number'
    | infinity t => cases s <;> cases t <;> rfl
    | zero t => cases s <;> rfl
    | finite t n f pos =>
      obtain ⟨_, _, low, high⟩ := rankOf_finite_bounds right
      cases s
      · exact below low
      · exact above high
  | zero s =>
    cases b with
    | notANumber => cases number'
    | infinity t => cases t <;> rfl
    | zero t => rfl
    | finite t n f pos =>
      obtain ⟨positive, negative, _, _⟩ := rankOf_finite_bounds right
      cases t
      · exact above (negative rfl)
      · exact below (positive rfl)
  | finite s m e pos =>
    obtain ⟨positive, negative, low, high⟩ := rankOf_finite_bounds left
    cases b with
    | notANumber => cases number'
    | infinity t =>
      cases t
      · exact above low
      · exact below high
    | zero t =>
      cases s
      · exact below (negative rfl)
      · exact above (positive rfl)
    | finite t n f pos' =>
      obtain ⟨positive', negative', _, _⟩ := rankOf_finite_bounds right
      cases s <;> cases t
      · show some ((compare e f).then (compare m n)).swap = _
        rw [compare_then left right, swap_compare]
        rfl
      · exact below (Int.lt_trans (negative rfl) (positive' rfl))
      · exact above (Int.lt_trans (negative' rfl) (positive rfl))
      · show some ((compare e f).then (compare m n)) = _
        rw [compare_then left right]
        rfl

private theorem compare_toModel {x y : Float} (left : x.isNaN = false) (right : y.isNaN = false) :
    x.toModel.unpack.compare y.toModel.unpack = some (compare (rank x) (rank y)) := by
  have packed (z : Float) : Packed z.toModel.unpack := by
    rw [unpack_toModel]
    exact packed_parts z
  exact compare_eq (packed x) (packed y) left right

theorem lt_iff {x y : Float} (left : x.isNaN = false) (right : y.isNaN = false) : x < y ↔ rank x < rank y := by
  show (decide (x.toModel.unpack.lt y.toModel.unpack) = true) ↔ _
  rw [UnpackedFloat.lt, compare_toModel left right, ← compare_lt_iff_lt]
  simp

theorem le_iff {x y : Float} (left : x.isNaN = false) (right : y.isNaN = false) : x ≤ y ↔ rank x ≤ rank y := by
  show (decide (x.toModel.unpack.le y.toModel.unpack) = true) ↔ _
  rw [UnpackedFloat.le, compare_toModel left right, ← Int.isLE_compare]
  simp

/-- What is not a number does not compare. -/
theorem compare_of_isNaN {u v : UnpackedFloat} (nan : u.isNaN = true ∨ v.isNaN = true) : u.compare v = none := by
  rcases nan with nan | nan
  · cases u with
    | notANumber => rfl
    | _ => cases nan
  · cases v with
    | notANumber => cases u <;> rfl
    | _ => cases nan

theorem isNaN_of_lt {x y : Float} (less : x < y) : x.isNaN = false ∧ y.isNaN = false := by
  by_contra nan
  have none : x.toModel.unpack.compare y.toModel.unpack = none := by
    refine compare_of_isNaN ?_
    by_contra number
    exact nan ⟨Bool.eq_false_iff.mpr (not_or.mp number).1, Bool.eq_false_iff.mpr (not_or.mp number).2⟩
  have ordered : decide (x.toModel.unpack.lt y.toModel.unpack) = true := less
  rw [UnpackedFloat.lt, none] at ordered
  cases ordered

theorem not_le_zero_iff {x : Float} : ¬ x ≤ 0.0 ↔ 0.0 < x ∨ x.isNaN = true := by
  have number : (0.0 : Float).isNaN = false := by decide
  cases nan : x.isNaN with
  | true =>
    have none : x.toModel.unpack.compare (0.0 : Float).toModel.unpack = none := compare_of_isNaN (.inl nan)
    refine ⟨fun _ => .inr rfl, fun _ least => ?_⟩
    have ordered : decide (x.toModel.unpack.le (0.0 : Float).toModel.unpack) = true := least
    rw [UnpackedFloat.le, none] at ordered
    cases ordered
  | false => simp [le_iff nan number, lt_iff number nan]

@[simp] theorem rank_zero : rank 0.0 = 0 := by decide

@[simp] theorem rank_one : rank 1.0 = 1023 * 2 ^ 52 := by decide

/-! ### Doubles given by their bits -/

private theorem toNat_packComponents (s : Sign) (e : BitVec 11) (m : BitVec 52) :
    (packComponents .binary64 s e m).toNat = s.toBitVec.toNat * 2 ^ 63 + e.toNat * 2 ^ 52 + m.toNat := by
  unfold packComponents
  rw [BitVec.toNat_append, BitVec.toNat_append, ← Nat.shiftLeft_add_eq_or_of_lt m.isLt,
    ← Nat.shiftLeft_add_eq_or_of_lt e.isLt]
  simp only [Nat.shiftLeft_eq]
  ring

private theorem toNat_pack_small {s : Sign} {m : Nat} (pos : 0 < m) (small : m < 2 ^ 52) {e : Int} (least : e = -1074) :
    (UnpackedFloat.pack .binary64 (.finite s m e pos)).toNat = s.toBitVec.toNat * 2 ^ 63 + m := by
  have short : ¬ m.log2 + 1 = Format.binary64.mantissaBits := by
    have : m.log2 < 52 := (Nat.log2_lt (Nat.ne_of_gt pos)).mpr small
    show ¬ m.log2 + 1 = 53
    omega
  subst least
  unfold UnpackedFloat.pack
  rw [if_neg (by decide), if_neg short, toNat_packComponents, BitVec.toNat_ofNat, BitVec.toNat_ofNat,
    Nat.mod_eq_of_lt small]
  omega

private theorem toNat_pack_normal {s : Sign} {m : Nat} (pos : 0 < m) (low : 2 ^ 52 ≤ m) (high : m < 2 ^ 53) {e : Int}
    (least : -1074 ≤ e) (most : e ≤ 971) :
    (UnpackedFloat.pack .binary64 (.finite s m e pos)).toNat =
      s.toBitVec.toNat * 2 ^ 63 + (e + 1075).toNat * 2 ^ 52 + (m - 2 ^ 52) := by
  have long : m.log2 + 1 = Format.binary64.mantissaBits := by
    have := (Nat.log2_eq_iff (Nat.ne_of_gt pos)).mpr ⟨low, high⟩
    show m.log2 + 1 = 53
    omega
  have biased : (e + (Format.binary64.exponentBias : Int) + (52 : Nat)).toNat = (e + 1075).toNat := by
    show (e + (1023 : Nat) + (52 : Nat)).toNat = _
    congr 1
    omega
  unfold UnpackedFloat.pack
  simp only [biased]
  rw [if_neg (by omega), if_pos long, toNat_packComponents, BitVec.toNat_ofNat, BitVec.toNat_ofNat,
    Nat.mod_eq_of_lt (by omega)]
  omega

private theorem ofBitVec_packComponents (s : Sign) (e : BitVec 11) (m : BitVec 52) :
    Sign.ofBitVec (@unpackSign .binary64 (packComponents .binary64 s e m)) = s := by
  have field : @unpackSign .binary64 (packComponents .binary64 s e m) = s.toBitVec := by
    apply BitVec.eq_of_toNat_eq
    rw [toNat_unpackSign, toNat_packComponents]
    have exponent := e.isLt
    have mantissa := m.isLt
    omega
  rw [field]
  cases s <;> rfl

/-- A number that is packed is taken apart as it was. -/
theorem unpack_pack {s : Sign} {m : Nat} {e : Int} {pos : 0 < m} (packed : Packed (.finite s m e pos)) :
    (Float.Model.pack (.finite s m e pos)).unpack = .finite s m e pos := by
  obtain ⟨short, least, most, long⟩ := packed
  have within : ¬ 2 ^ Format.binary64.exponentBits ≤
      (e + Format.binary64.exponentBias + Format.binary64.mantissaBitsWithoutImplicit).toNat + 1 := by
    show ¬ 2 ^ 11 ≤ (e + (1023 : Nat) + (52 : Nat)).toNat + 1
    omega
  show UnpackedFloat.unpack .binary64 (UnpackedFloat.pack .binary64 (.finite s m e pos)) = _
  unfold UnpackedFloat.pack
  dsimp only
  rw [if_neg within]
  rcases Nat.lt_or_ge m (2 ^ 52) with small | normal
  · obtain rfl : e = -1074 := by omega
    have shorter : ¬ m.log2 + 1 = Format.binary64.mantissaBits := by
      have places := (Nat.log2_lt (Nat.ne_of_gt pos)).mpr small
      show ¬ m.log2 + 1 = 53
      omega
    have kept : (BitVec.ofNat 52 m).toNat = m := by rw [BitVec.toNat_ofNat, Nat.mod_eq_of_lt small]
    have nonzero : BitVec.ofNat 52 m ≠ 0#52 := by
      intro zero
      rw [zero] at kept
      exact Nat.ne_of_gt pos kept.symm
    rw [if_neg shorter]
    unfold UnpackedFloat.unpack
    simp only [Float.Model.UnpackedFloat.unpackMantissa_packComponents,
      Float.Model.UnpackedFloat.unpackExponent_packComponents, ofBitVec_packComponents, kept, nonzero]
    rfl
  · have places : m.log2 + 1 = Format.binary64.mantissaBits := by
      have exact := (Nat.log2_eq_iff (Nat.ne_of_gt pos)).mpr ⟨normal, short⟩
      show m.log2 + 1 = 53
      omega
    have biased : (BitVec.ofNat 11
        (e + Format.binary64.exponentBias + Format.binary64.mantissaBitsWithoutImplicit).toNat).toNat = (e + 1075).toNat := by
      rw [BitVec.toNat_ofNat]
      show (e + (1023 : Nat) + (52 : Nat)).toNat % 2 ^ 11 = _
      omega
    have full : (BitVec.ofNat 11
        (e + Format.binary64.exponentBias + Format.binary64.mantissaBitsWithoutImplicit).toNat) ≠ -1#11 := by
      intro contra
      rw [contra] at biased
      have : (-1#11).toNat = 2047 := rfl
      omega
    have empty : (BitVec.ofNat 11
        (e + Format.binary64.exponentBias + Format.binary64.mantissaBitsWithoutImplicit).toNat) ≠ 0#11 := by
      intro contra
      rw [contra] at biased
      have : (0#11).toNat = 0 := rfl
      omega
    have kept : (1#1 ++ BitVec.ofNat 52 m).toNat = m := by
      rw [toNat_one_append, BitVec.toNat_ofNat]
      omega
    have exponent : ((e + 1075).toNat : Int) - ((Format.binary64.exponentBias : Int) + (52 : Nat)) = e := by
      show ((e + 1075).toNat : Int) - ((1023 : Nat) + (52 : Nat)) = e
      omega
    rw [if_pos places]
    unfold UnpackedFloat.unpack
    simp only [Float.Model.UnpackedFloat.unpackMantissa_packComponents,
      Float.Model.UnpackedFloat.unpackExponent_packComponents, ofBitVec_packComponents, full, empty, kept, biased,
      ↓reduceIte, exponent]

theorem unpack_pack_zero (s : Sign) : (Float.Model.pack (.zero s)).unpack = .zero s := by
  show UnpackedFloat.unpack .binary64 (packComponents .binary64 s 0 0) = _
  unfold UnpackedFloat.unpack
  simp only [Float.Model.UnpackedFloat.unpackMantissa_packComponents,
    Float.Model.UnpackedFloat.unpackExponent_packComponents, ofBitVec_packComponents]
  rfl

theorem unpack_pack_infinity (s : Sign) : (Float.Model.pack (.infinity s)).unpack = .infinity s := by
  show UnpackedFloat.unpack .binary64 (packComponents .binary64 s (-1#11) 0) = _
  unfold UnpackedFloat.unpack
  simp only [Float.Model.UnpackedFloat.unpackMantissa_packComponents,
    Float.Model.UnpackedFloat.unpackExponent_packComponents, ofBitVec_packComponents]
  rfl

/-- A number whose exponent is too large is packed as infinity. -/
theorem unpack_pack_of_large {s : Sign} {m : Nat} {e : Int} {pos : 0 < m} (large : 971 < e) :
    (Float.Model.pack (.finite s m e pos)).unpack = .infinity s := by
  have outside : 2 ^ Format.binary64.exponentBits ≤
      (e + Format.binary64.exponentBias + Format.binary64.mantissaBitsWithoutImplicit).toNat + 1 := by
    show 2 ^ 11 ≤ (e + (1023 : Nat) + (52 : Nat)).toNat + 1
    omega
  have same : UnpackedFloat.pack .binary64 (.finite s m e pos) = UnpackedFloat.pack .binary64 (.infinity s) := if_pos outside
  show UnpackedFloat.unpack .binary64 (UnpackedFloat.pack .binary64 (.finite s m e pos)) = _
  rw [same]
  exact unpack_pack_infinity s

/-- The bits that a double is made from are those that it has, unless they spell what is no number. -/
theorem toBits_ofBits {b : UInt64} (number : b.toNat / 2 ^ 52 % 2 ^ 11 ≠ 2047) : (Float.ofBits b).toBits = b := by
  have full := unpackExponent_eq_full b.toBitVec
  have empty := unpackExponent_eq_zero b.toBitVec
  have blank := unpackMantissa_eq_zero b.toBitVec
  have bound : b.toNat < 2 ^ 64 := b.toNat_lt
  have sign := toNat_signOf b.toNat bound
  have bias : Format.binary64.exponentBias = 1023 := rfl
  show UInt64.ofBitVec (UnpackedFloat.pack .binary64 (UnpackedFloat.unpack .binary64 b.toBitVec)) = b
  apply UInt64.toNat_inj.mp
  show (UnpackedFloat.pack .binary64 (UnpackedFloat.unpack .binary64 b.toBitVec)).toNat = b.toNat
  unfold UnpackedFloat.unpack
  simp only [full, empty, blank, ofBitVec_unpackSign, toNat_unpackExponent, toNat_unpackMantissa, toNat_one_append,
    UInt64.toNat_toBitVec, if_neg number, bias]
  split_ifs with small zero
  · show (packComponents .binary64 _ 0#11 0#52).toNat = _
    rw [toNat_packComponents, sign, BitVec.toNat_ofNat, BitVec.toNat_ofNat]
    omega
  · rw [toNat_pack_small _ (by omega) (by omega), sign]
    omega
  · rw [toNat_pack_normal _ (by omega) (by omega) (by omega) (by omega), sign]
    omega

theorem parts_ofBits {negative : Bool} {bits : Nat} (bound : bits < infinityBits) :
    parts (ofBits negative bits) =
      if bits / 2 ^ 52 = 0 then .finite negative (bits % 2 ^ 52) (-1074)
      else .finite negative (2 ^ 52 + bits % 2 ^ 52) (Int.ofNat (bits / 2 ^ 52) - 1075) := by
  unfold infinityBits at bound
  have whole : (UInt64.ofNat (if negative then 2 ^ 63 + bits else bits)).toNat =
      if negative then 2 ^ 63 + bits else bits := by
    rw [UInt64.toNat_ofNat_of_lt']
    show _ < 2 ^ 64
    split_ifs <;> omega
  have stored : (ofBits negative bits).toBits.toNat = if negative then 2 ^ 63 + bits else bits := by
    unfold ofBits
    rw [toBits_ofBits, whole]
    rw [whole]
    split_ifs <;> omega
  have number : ¬ bits / 2 ^ 52 = 2047 := by omega
  unfold parts
  simp only [stored]
  cases negative with
  | false =>
    have low : ¬ 2 ^ 63 ≤ bits := by omega
    have exponent : bits / 2 ^ 52 % 2 ^ 11 = bits / 2 ^ 52 := by omega
    simp only [Bool.false_eq_true, ↓reduceIte, exponent, number, low, decide_false]
  | true =>
    have high : 2 ^ 63 ≤ 2 ^ 63 + bits := by omega
    have exponent : (2 ^ 63 + bits) / 2 ^ 52 % 2 ^ 11 = bits / 2 ^ 52 := by omega
    have fraction : (2 ^ 63 + bits) % 2 ^ 52 = bits % 2 ^ 52 := by omega
    simp only [↓reduceIte, exponent, fraction, number, high, decide_true]

private theorem rankOf_unpacked (negative : Bool) (m : Nat) (e : Int) (least : m = 0 → e = -1074) :
    rankOf (unpacked (.finite negative m e)) =
      if negative then -((e + 1074) * 2 ^ 52 + m) else (e + 1074) * 2 ^ 52 + m := by
  rcases Nat.eq_zero_or_pos m with zero | pos
  · rw [least zero, zero]
    cases negative <;> rfl
  · rw [unpacked_finite _ pos]
    cases negative <;> rfl

theorem rank_ofBits {negative : Bool} {bits : Nat} (bound : bits < infinityBits) :
    rank (ofBits negative bits) = if negative then -(bits : Int) else bits := by
  unfold rank
  rw [unpack_toModel, parts_ofBits bound]
  split_ifs with small sign sign
  · rw [rankOf_unpacked _ _ _ (fun _ => rfl), if_pos sign]
    omega
  · rw [rankOf_unpacked _ _ _ (fun _ => rfl), if_neg sign]
    omega
  · rw [rankOf_unpacked _ _ _ (by omega), if_pos sign, Int.ofNat_eq_natCast]
    omega
  · rw [rankOf_unpacked _ _ _ (by omega), if_neg sign, Int.ofNat_eq_natCast]
    omega

theorem isNaN_unpacked_finite (negative : Bool) (m : Nat) (e : Int) :
    (unpacked (.finite negative m e)).isNaN = false := by
  rcases Nat.eq_zero_or_pos m with rfl | pos
  · rfl
  · rw [unpacked_finite _ pos]
    rfl

theorem isNaN_ofBits {negative : Bool} {bits : Nat} (bound : bits < infinityBits) :
    (ofBits negative bits).isNaN = false := by
  show (ofBits negative bits).toModel.unpack.isNaN = false
  rw [unpack_toModel, parts_ofBits bound]
  split_ifs <;> exact isNaN_unpacked_finite _ _ _

/-! ### Quotients -/

private theorem isNaN_unpack {s : Sign} {e : BitVec 11} {m : BitVec 52} (number : e ≠ -1#11 ∨ m = 0#52) :
    (UnpackedFloat.unpack .binary64 (packComponents .binary64 s e m)).isNaN = false := by
  unfold UnpackedFloat.unpack
  simp only [Float.Model.UnpackedFloat.unpackMantissa_packComponents,
    Float.Model.UnpackedFloat.unpackExponent_packComponents]
  split_ifs with full blank
  · rfl
  · rcases number with other | zero
    · exact absurd full other
    · exact absurd zero blank
  · rfl
  · rfl
  · rfl

/-- Packing makes no number into what is none. -/
private theorem isNaN_pack {u : UnpackedFloat} (number : u.isNaN = false) :
    (Float.Model.pack u).unpack.isNaN = false := by
  show (UnpackedFloat.unpack .binary64 (UnpackedFloat.pack .binary64 u)).isNaN = false
  cases u with
  | notANumber => cases number
  | infinity s => exact isNaN_unpack (.inr rfl)
  | zero s => exact isNaN_unpack (.inr rfl)
  | finite s m e pos =>
    unfold UnpackedFloat.pack
    dsimp only
    split_ifs with beyond long
    · exact isNaN_unpack (.inr rfl)
    · apply isNaN_unpack
      left
      intro full
      have stored := congrArg BitVec.toNat full
      rw [BitVec.toNat_ofNat] at stored
      have : (-1#11).toNat = 2047 := rfl
      omega
    · exact isNaN_unpack (.inl (by decide))

/-- A number divided by a finite number other than zero is a number. -/
theorem isNaN_div {x y : Float} (number : x.isNaN = false) {negative : Bool} {m : Nat} {e : Int} (pos : 0 < m)
    (finite : parts y = .finite negative m e) : (x / y).isNaN = false := by
  show (Float.Model.pack (UnpackedFloat.div .binary64 x.toModel.unpack y.toModel.unpack)).unpack.isNaN = false
  apply isNaN_pack
  rw [unpack_toModel y, finite, unpacked_finite _ pos]
  have number' : x.toModel.unpack.isNaN = false := number
  cases unpacked : x.toModel.unpack with
  | notANumber =>
    rw [unpacked] at number'
    cases number'
  | infinity t => rfl
  | zero t => rfl
  | finite t n f pos' =>
    show (UnpackedFloat.roundWithAccuracy _ _ _ _ _).isNaN = false
    unfold UnpackedFloat.roundWithAccuracy
    dsimp only
    split_ifs <;> rfl

end CpuLoad.DoubleOrder
