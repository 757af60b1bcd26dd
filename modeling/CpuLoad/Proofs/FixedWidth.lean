import CpuLoad.DecimalDigit
import Mathlib.Data.List.Basic
import Mathlib.Data.Nat.Basic
import Mathlib.Order.Basic
import Mathlib.Tactic.IntervalCases

/-!
Numbers that are written with a fixed number of digits, zeros in front of the shorter ones. A number that is filled with
zeros to a width has its last digits there (`filled_eq`), and decimal numbers of one width are in the order of their digits
(`lastDigits_lt`).
-/
namespace CpuLoad.FixedWidth
open CpuLoad.DecimalDigit

/-- The last digits of a number, as many as a width says. -/
def lastDigits (base : Nat) : Nat → Nat → List Char
  | 0, _ => []
  | width + 1, n => lastDigits base width (n / base) ++ [Nat.digitChar (n % base)]

@[simp] theorem length_lastDigits (base width n : Nat) : (lastDigits base width n).length = width := by
  induction width generalizing n with
  | zero => rfl
  | succ width ih => simp [lastDigits, ih]

theorem lastDigits_zero (base width : Nat) : lastDigits base width 0 = List.replicate width '0' := by
  induction width with
  | zero => rfl
  | succ width ih =>
    rw [List.replicate_succ', ← ih, lastDigits, Nat.zero_div, Nat.zero_mod]
    rfl

section
variable {base width n : Nat}

theorem lastDigits_one (single : n < base) : lastDigits base 1 n = [Nat.digitChar n] := by
  rw [lastDigits, Nat.mod_eq_of_lt single]
  rfl

/-- A number filled with zeros to a width. -/
theorem filled_eq (several : 1 < base) (short : n < base ^ (width + 1)) :
    List.replicate (width + 1 - (Nat.toDigits base n).length) '0' ++ Nat.toDigits base n = lastDigits base (width + 1) n := by
  induction width generalizing n with
  | zero =>
    have single : n < base := by simpa using short
    rw [Nat.toDigits_of_lt_base single, lastDigits_one single]
    rfl
  | succ width ih =>
    rw [lastDigits, Nat.toDigits_eq_if several]
    split
    · next single =>
      rw [Nat.div_eq_of_lt single, Nat.mod_eq_of_lt single, lastDigits_zero]
      rfl
    · have fewer : n / base < base ^ (width + 1) := Nat.div_lt_of_lt_mul (by rwa [Nat.pow_succ'] at short)
      rw [← ih fewer, List.length_append, List.length_singleton, Nat.add_sub_add_right, List.append_assoc]

/-- A number that is long enough is not filled up. -/
theorem toDigits_eq (several : 1 < base) (long : base ^ width ≤ n) (short : n < base ^ (width + 1)) :
    Nat.toDigits base n = lastDigits base (width + 1) n := by
  induction width generalizing n with
  | zero =>
    have single : n < base := by simpa using short
    rw [Nat.toDigits_of_lt_base single, lastDigits_one single]
  | succ width ih =>
    have positive : 0 < base ^ width := Nat.pow_pos (Nat.lt_of_succ_lt several)
    have more : ¬ n < base := by
      refine Nat.not_lt.mpr (le_trans ?_ long)
      rw [Nat.pow_succ]
      exact Nat.le_mul_of_pos_left base positive
    have longer : base ^ width ≤ n / base :=
      (Nat.le_div_iff_mul_le (Nat.lt_of_succ_lt several)).mpr (by rwa [Nat.pow_succ] at long)
    have fewer : n / base < base ^ (width + 1) := Nat.div_lt_of_lt_mul (by rwa [Nat.pow_succ'] at short)
    rw [lastDigits, Nat.toDigits_eq_if several, if_neg more, ih longer fewer]

end

/-! ### Order -/

theorem append_lt_append {xs ys : List Char} (same : xs.length = ys.length) (less : xs < ys) (front back : List Char) :
    xs ++ front < ys ++ back := by
  induction xs generalizing ys with
  | nil =>
    obtain rfl := List.length_eq_zero_iff.mp same.symm
    exact absurd less (List.lt_irrefl [])
  | cons x xs ih =>
    obtain ⟨y, ys, rfl⟩ := List.exists_cons_of_length_eq_add_one same.symm
    rw [List.cons_append, List.cons_append, List.cons_lt_cons_iff]
    rcases List.cons_lt_cons_iff.mp less with first | ⟨first, rest⟩
    · exact .inl first
    · exact .inr ⟨first, ih (Nat.succ.inj same) rest⟩

theorem digitChar_lt {m n : Nat} (less : m < n) (digit : n < 10) : Nat.digitChar m < Nat.digitChar n := by
  interval_cases n <;> interval_cases m <;> decide

/-- Numbers of one width are in the order of their digits. -/
theorem lastDigits_lt {width m n : Nat} (less : m < n) (short : n < 10 ^ width) :
    lastDigits 10 width m < lastDigits 10 width n := by
  induction width generalizing m n with
  | zero => omega
  | succ width ih =>
    rw [Nat.pow_succ] at short
    unfold lastDigits
    by_cases tens : m / 10 < n / 10
    · exact append_lt_append (by simp) (ih tens (by omega)) _ _
    · have same : m / 10 = n / 10 := by omega
      rw [same]
      refine List.append_left_lt (List.cons_lt_cons_iff.mpr (.inl (digitChar_lt ?_ ?_)))
      · omega
      · omega

/-! ### Decimal numbers -/

theorem toList_padded {width n : Nat} (short : n < 10 ^ (width + 1)) :
    (padded (width + 1) n).toList = lastDigits 10 (width + 1) n := by
  rw [padded, String.toList_ofList]
  exact filled_eq (by decide) short

theorem toList_padded_one {width n : Nat} (long : 10 ^ width ≤ n) (short : n < 10 ^ (width + 1)) :
    (padded 1 n).toList = lastDigits 10 (width + 1) n := by
  have digits : digitsOf n = lastDigits 10 (width + 1) n := toDigits_eq (by decide) long short
  rw [padded, String.toList_ofList, digits, length_lastDigits, Nat.sub_eq_zero_of_le (by omega)]
  rfl

end CpuLoad.FixedWidth
