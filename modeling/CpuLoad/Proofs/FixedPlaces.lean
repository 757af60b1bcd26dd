import CpuLoad.FixedPoint
import CpuLoad.Proofs.FixedWidth
import Mathlib.Algebra.Order.Field.Basic
import Mathlib.Algebra.Order.Field.Rat
import Mathlib.Tactic.NormNum

/-!
What a double says that is written with a fixed number of places. A finite one is rounded to the nearest number of units of
the last place, the even one of two (`isNearest_roundQuotient`). The digits of that number are written with a point before
the last of them (`unitsText_eq`). A percentage has one place, and stands at the right end of its field
(`isCell_percentText`).
-/
namespace CpuLoad.FixedPlaces
open CpuLoad.Binary64 CpuLoad.DecimalDigit CpuLoad.FixedPoint CpuLoad.FixedWidth

/-! ### Rounding -/

/-- The integer nearest to a size, the even one of two. -/
structure IsNearest (size : Rat) (n : Nat) : Prop where
  near : |size - n| ≤ 1 / 2
  even : |size - n| = 1 / 2 → n % 2 = 0

theorem isNearest_natCast (n : Nat) : IsNearest n n := by
  constructor <;> simp

/-- Nearness to a quotient, in integers. -/
theorem isNearest_div_iff {n d u : Nat} (pos : 0 < d) : IsNearest ((n : Rat) / d) u ↔
    2 * ((n : Int) - d * u).natAbs ≤ d ∧ (2 * ((n : Int) - d * u).natAbs = d → u % 2 = 0) := by
  have positive : (0 : Rat) < d := by exact_mod_cast pos
  have distance : |(n : Rat) / d - u| = (((n : Int) - d * u).natAbs : Rat) / d := by
    rw [Nat.cast_natAbs, Int.cast_abs, div_sub' positive.ne', abs_div, abs_of_pos positive]
    push_cast
    rfl
  have near : |(n : Rat) / d - u| ≤ 1 / 2 ↔ 2 * ((n : Int) - d * u).natAbs ≤ d := by
    rw [distance, div_le_div_iff₀ positive two_pos, one_mul, mul_comm]
    exact_mod_cast Iff.rfl
  have tie : |(n : Rat) / d - u| = 1 / 2 ↔ 2 * ((n : Int) - d * u).natAbs = d := by
    rw [distance, div_eq_div_iff positive.ne' two_pos.ne', one_mul, mul_comm]
    exact_mod_cast Iff.rfl
  rw [← near, ← tie]
  exact ⟨fun ⟨near, even⟩ => ⟨near, even⟩, fun ⟨near, even⟩ => ⟨near, even⟩⟩

theorem isNearest_roundQuotient (n : Nat) {d : Nat} (pos : 0 < d) : IsNearest ((n : Rat) / d) (roundQuotient n d) := by
  rw [isNearest_div_iff pos]
  have division := Nat.div_add_mod n d
  have remainder := Nat.mod_lt n pos
  have next : d * (n / d + 1) = d * (n / d) + d := Nat.mul_succ d (n / d)
  unfold roundQuotient
  dsimp only
  rw [← Nat.cast_mul]
  split_ifs with lower upper even
  · omega
  · rw [next]
    omega
  · omega
  · rw [next]
    omega

/-! ### Digits -/

/-- A number filled with zeros to more than some places is what stands before them and its last digits there. -/
theorem filled_places (places n : Nat) :
    List.replicate (places + 1 - (digitsOf n).length) '0' ++ digitsOf n =
      digitsOf (n / 10 ^ places) ++ lastDigits 10 places n := by
  induction places generalizing n with
  | zero =>
    have some : 0 < (digitsOf n).length := Nat.length_toDigits_pos
    rw [Nat.sub_eq_zero_of_le (by omega), Nat.pow_zero, Nat.div_one, lastDigits, List.append_nil]
    rfl
  | succ places ih =>
    rw [lastDigits, ← List.append_assoc, Nat.pow_succ', ← Nat.div_div_eq_div_mul, ← ih (n / 10)]
    have digits : digitsOf n = if n < 10 then [Nat.digitChar n] else digitsOf (n / 10) ++ [Nat.digitChar (n % 10)] :=
      Nat.toDigits_eq_if (by decide)
    rw [digits]
    split
    · next single =>
      rw [Nat.div_eq_of_lt single, Nat.mod_eq_of_lt single, List.length_singleton, Nat.add_sub_cancel, List.replicate_succ']
      rfl
    · rw [List.length_append, List.length_singleton, Nat.add_sub_add_right, List.append_assoc]

/-- The last digits of a number of units stand behind the point. -/
theorem unitsText_eq {places : Nat} (positive : 0 < places) (units : Nat) :
    unitsText places units = digitsOf (units / 10 ^ places) ++ '.' :: lastDigits 10 places units := by
  have long (front : List Char) : (front ++ lastDigits 10 places units).length - places = front.length := by simp
  unfold unitsText
  dsimp only
  rw [filled_places, if_neg positive.ne', long, List.take_left, List.drop_left]

/-! ### Texts -/

/-- Whether characters are a double with a fixed number of places. -/
inductive Spells (places : Nat) (x : Float) : List Char → Prop
  | nan (known : parts x = .nan) : Spells places x "nan".toList
  | infinite {negative : Bool} (known : parts x = .infinite negative) :
      Spells places x (if negative then "-inf" else "inf").toList
  | finite {negative : Bool} {m : Nat} {e : Int} {units : Nat} (known : parts x = .finite negative m e)
      (nearest : IsNearest (scaled m e * 10 ^ places) units) :
      Spells places x ((if negative then ['-'] else []) ++
        (digitsOf (units / 10 ^ places) ++ '.' :: lastDigits 10 places units))

/-- The exact value of a finite double is rounded once. -/
theorem isNearest_units (places m : Nat) (e : Int) : IsNearest (scaled m e * 10 ^ places)
    (if 0 ≤ e then m * 2 ^ e.toNat * 10 ^ places else roundQuotient (m * 10 ^ places) (2 ^ (-e).toNat)) := by
  unfold scaled
  split
  · have whole := isNearest_natCast (m * 2 ^ e.toNat * 10 ^ places)
    rwa [Nat.cast_mul, Nat.cast_pow] at whole
  · have rounded := isNearest_roundQuotient (m * 10 ^ places) (Nat.two_pow_pos (-e).toNat)
    rw [Nat.cast_mul, Nat.cast_pow, mul_div_right_comm] at rounded
    rw [Rat.mkRat_eq_div, Int.cast_natCast]
    exact rounded

theorem spells_text {places : Nat} (positive : 0 < places) (x : Float) : Spells places x (text places x).toList := by
  unfold text
  cases known : parts x with
  | nan => exact .nan known
  | infinite negative => exact .infinite known
  | finite negative m e =>
    have written := Spells.finite known (isNearest_units places m e)
    rw [← unitsText_eq positive] at written
    dsimp only
    rw [String.toList_ofList]
    cases negative <;> exact written

/-- Whether a cell says a share: it has the share as a percentage with one place, at the right end of six characters or
more. -/
def IsCell (share : Float) (cell : String) : Prop :=
  ∃ number, Spells 1 (share * 100.0) number ∧
    cell.toList = List.replicate (6 - (number.length + 1)) ' ' ++ (number ++ ['%'])

theorem isCell_percentText (share : Float) : IsCell share (percentText share) := by
  refine ⟨_, spells_text Nat.one_pos (share * 100.0), ?_⟩
  unfold percentText padLeft
  rw [String.toList_ofList, String.toList_append, String.length_append, String.length_toList]
  rfl

end CpuLoad.FixedPlaces
