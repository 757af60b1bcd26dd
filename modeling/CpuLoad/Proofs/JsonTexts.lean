import CpuLoad.JsonLine
import CpuLoad.Proofs.FixedWidth
import CpuLoad.Proofs.JsonReader
import Mathlib.Data.List.Chain

/-!
A text that is written between quotes is read back. Each code point is written as one unit or as a pair of surrogates
(`units_escape`), and reading joins the pairs again (`joined_flatMap`). A text in which a high and a low surrogate stand
beside one another is read as one with the code point that they stand for; every other text is `IsWhole` and is read as
itself.
-/
namespace CpuLoad.JsonTexts
open CpuLoad.CodePoint CpuLoad.FixedWidth CpuLoad.JsonLine CpuLoad.JsonReader

/-! ### Units -/

/-- The units that a code point is written with: itself, or a pair of surrogates. -/
def unitsOf (n : Nat) : List Nat :=
  if n < 0x10000 then [n] else [0xD800 + (n - 0x10000) / 0x400, 0xDC00 + (n - 0x10000) % 0x400]

/-- Units before what is read behind them. -/
def beforeAll (units : List Nat) (read : List Nat × List Char) : List Nat × List Char := (units ++ read.1, read.2)

theorem hexValue_digitChar {d : Nat} (digit : d < 16) : hexValue? (Nat.digitChar d) = some d := by
  interval_cases d <;> rfl

theorem units_unitEscape {n : Nat} (bound : n < 0x10000) (rest : List Char) :
    units? (unitEscape n ++ rest) = (units? rest).map (before n) := by
  have digits : Quoted.hexText 4 n = lastDigits 16 4 n := filled_eq (by decide) bound
  have written : unitEscape n ++ rest = '\\' :: 'u' :: Nat.digitChar (n / 16 / 16 / 16 % 16) ::
      Nat.digitChar (n / 16 / 16 % 16) :: Nat.digitChar (n / 16 % 16) :: Nat.digitChar (n % 16) :: rest := by
    rw [unitEscape, digits]
    rfl
  have digit (k : Nat) : hexValue? (Nat.digitChar (k % 16)) = some (k % 16) :=
    hexValue_digitChar (Nat.mod_lt k (by decide))
  have value : unit? (Nat.digitChar (n / 16 / 16 / 16 % 16)) (Nat.digitChar (n / 16 / 16 % 16))
      (Nat.digitChar (n / 16 % 16)) (Nat.digitChar (n % 16)) = some n := by
    unfold unit?
    simp only [digit, Option.bind_eq_bind, Option.bind_some, Option.pure_def, Option.some.injEq]
    omega
  rw [written, units?, value]
  rfl

theorem units_letter {n : Nat} {letter : Char} (known : letterFor? n = some letter) (rest : List Char) :
    units? ('\\' :: letter :: rest) = (units? rest).map (before n) := by
  unfold letterFor? at known
  split_ifs at known <;> subst n <;> cases known <;> rfl

theorem toNat_plain {n : Nat} (most : n < 127) : (Char.ofNat n).toNat = n := by
  have valid : n.isValidChar := .inl (by omega)
  unfold Char.ofNat
  rw [dif_pos valid]
  rfl

theorem units_plain {n : Nat} (unescaped : letterFor? n = none) (least : 32 ≤ n) (most : n < 127) (rest : List Char) :
    units? (Char.ofNat n :: rest) = (units? rest).map (before n) := by
  have own := toNat_plain most
  have quote : Char.ofNat n ≠ '"' := by
    intro same
    rw [same] at own
    subst own
    cases unescaped
  have slash : Char.ofNat n ≠ '\\' := by
    intro same
    rw [same] at own
    subst own
    cases unescaped
  rw [units?.eq_5 _ _ quote (fun _ _ _ _ _ same => absurd same slash) (fun _ _ same => absurd same slash), own,
    if_neg (Nat.not_lt.mpr least)]

theorem units_escape {n : Nat} (bound : n ≤ greatest) (rest : List Char) :
    units? (escape n ++ rest) = (units? rest).map (beforeAll (unitsOf n)) := by
  unfold greatest at bound
  unfold escape
  split
  · next letter known =>
    have small : n < 0x10000 := by
      unfold letterFor? at known
      split_ifs at known <;> subst n <;> decide
    rw [unitsOf, if_pos small]
    exact units_letter known rest
  · next unescaped =>
    split
    · next plain =>
      obtain ⟨least, most⟩ : 32 ≤ n ∧ n < 127 := by simpa using plain
      rw [unitsOf, if_pos (by omega)]
      exact units_plain unescaped least most rest
    · split
      · next small =>
        rw [unitsOf, if_pos small]
        exact units_unitEscape small rest
      · next large =>
        have high : 0xD800 + (n - 0x10000) / 0x400 < 0x10000 := by omega
        have low : 0xDC00 + (n - 0x10000) % 0x400 < 0x10000 := by omega
        rw [unitsOf, if_neg large, List.append_assoc, units_unitEscape high, units_unitEscape low, Option.map_map]
        rfl

theorem units_text {points : List Nat} (bound : ∀ n ∈ points, n ≤ greatest) (rest : List Char) :
    units? (points.flatMap escape ++ '"' :: rest) = some (points.flatMap unitsOf, rest) := by
  induction points with
  | nil => rfl
  | cons n points ih =>
    obtain ⟨first, others⟩ := List.forall_mem_cons.mp bound
    rw [List.flatMap_cons, List.append_assoc, units_escape first, ih others]
    rfl

/-! ### Surrogates -/

theorem joined_cons_cons {m n : Nat} (apart : (isHigh m && isLow n) = false) (rest : List Nat) :
    joined (m :: n :: rest) = m :: joined (n :: rest) := by
  rw [joined, apart, if_neg Bool.false_ne_true]

/-- The pair of surrogates for a code point is joined to it. -/
theorem joined_unitsOf {n : Nat} (bound : n ≤ greatest) (large : 0x10000 ≤ n) (rest : List Nat) :
    joined (unitsOf n ++ rest) = n :: joined rest := by
  unfold greatest at bound
  have high : isHigh (0xD800 + (n - 0x10000) / 0x400) = true := by
    simp only [isHigh, Bool.and_eq_true, decide_eq_true_eq]
    omega
  have low : isLow (0xDC00 + (n - 0x10000) % 0x400) = true := by
    simp only [isLow, Bool.and_eq_true, decide_eq_true_eq]
    omega
  rw [unitsOf, if_neg (Nat.not_lt.mpr large), List.cons_append, List.cons_append, List.nil_append, joined, high, low]
  simp only [Bool.and_self, ↓reduceIte, List.cons.injEq, and_true]
  omega

/-- The first unit of a code point is a low surrogate only if that is the code point. -/
theorem unitsOf_eq_cons {n : Nat} (bound : n ≤ greatest) :
    ∃ unit units, unitsOf n = unit :: units ∧ (isLow n = false → isLow unit = false) := by
  unfold greatest at bound
  unfold unitsOf
  split
  · exact ⟨n, [], rfl, id⟩
  · refine ⟨_, _, rfl, fun _ => ?_⟩
    simp only [isLow, Bool.and_eq_false_iff, decide_eq_false_iff_not]
    omega

/-- Taking code points apart makes no difference to what is joined. -/
theorem joined_flatMap {points : List Nat} (bound : ∀ n ∈ points, n ≤ greatest) :
    joined (points.flatMap unitsOf) = joined points := by
  fun_induction joined points with
  | case1 => rfl
  | case2 n =>
    have own := bound n List.mem_cons_self
    rw [List.flatMap_cons, List.flatMap_nil]
    by_cases small : n < 0x10000
    · rw [unitsOf, if_pos small]
      rfl
    · exact joined_unitsOf own (Nat.not_lt.mp small) []
  | case3 high low rest pair ih =>
    obtain ⟨_, _, others⟩ := by simpa only [List.forall_mem_cons] using bound
    obtain ⟨upper, lower⟩ := Bool.and_eq_true_iff.mp pair
    have small : high < 0x10000 := by
      simp only [isHigh, Bool.and_eq_true, decide_eq_true_eq] at upper
      omega
    have small' : low < 0x10000 := by
      simp only [isLow, Bool.and_eq_true, decide_eq_true_eq] at lower
      omega
    rw [List.flatMap_cons, List.flatMap_cons, unitsOf, unitsOf, if_pos small, if_pos small']
    rw [List.singleton_append, List.singleton_append, joined, if_pos pair, ih others]
  | case4 high low rest apart ih =>
    obtain ⟨own, others⟩ := List.forall_mem_cons.mp bound
    have inner := ih others
    rw [List.flatMap_cons]
    by_cases small : high < 0x10000
    · obtain ⟨unit, units, first, kept⟩ := unitsOf_eq_cons (others low List.mem_cons_self)
      rw [List.flatMap_cons, first, List.cons_append] at inner ⊢
      have still : (isHigh high && isLow unit) = false := by
        rcases Bool.and_eq_false_iff.mp (Bool.eq_false_iff.mpr apart) with single | single
        · rw [single, Bool.false_and]
        · rw [kept single, Bool.and_false]
      rw [unitsOf, if_pos small, List.singleton_append, joined_cons_cons still, inner]
    · rw [joined_unitsOf own (Nat.not_lt.mp small), inner]

/-- A text whose code points stay as they are when surrogates are joined: no high one stands right before a low one. -/
def IsWhole (text : String) : Prop := (points text).IsChain fun high low => (isHigh high && isLow low) = false

theorem joined_of_isChain {points : List Nat} (whole : points.IsChain fun high low => (isHigh high && isLow low) = false) :
    joined points = points := by
  fun_induction joined points with
  | case1 => rfl
  | case2 n => rfl
  | case3 high low rest pair ih =>
    rw [(List.isChain_cons_cons.mp whole).1] at pair
    cases pair
  | case4 high low rest apart ih => rw [ih (List.isChain_cons_cons.mp whole).2]

theorem toNat_le (c : Char) : c.toNat ≤ greatest := by
  unfold greatest
  rcases c.valid with low | ⟨_, high⟩
  · exact Nat.le_of_lt (Nat.lt_trans low (by decide))
  · exact Nat.le_of_lt_succ high

theorem isHigh_toNat (c : Char) : isHigh c.toNat = false := by
  simp only [isHigh, Bool.and_eq_false_iff, decide_eq_false_iff_not]
  rcases c.valid with low | ⟨above, _⟩
  · exact .inl (Nat.not_le.mpr low)
  · exact .inr (Nat.not_le.mpr (Nat.lt_trans (by decide) above))

/-- A text that is written for characters has their code points, and is whole. -/
theorem points_ofChars (cs : List Char) : points (ofChars cs) = cs.map Char.toNat ∧ IsWhole (ofChars cs) := by
  have bound : ∀ n ∈ cs.map Char.toNat, n ≤ greatest := by
    intro n member
    obtain ⟨c, _, rfl⟩ := List.mem_map.mp member
    exact toNat_le c
  have same : points (ofChars cs) = cs.map Char.toNat := points_stringOf bound
  refine ⟨same, ?_⟩
  unfold IsWhole
  rw [same, List.isChain_map]
  refine List.Pairwise.isChain (List.pairwise_of_forall fun c d => ?_)
  rw [isHigh_toNat, Bool.false_and]

/-- No code point of a text is beyond the greatest. -/
theorem points_le (text : String) : ∀ n ∈ points text, n ≤ greatest := by
  have below (c : Char) : c.toNat - distance ≤ greatest := Nat.le_trans (Nat.sub_le ..) (toNat_le c)
  unfold points
  generalize text.toList = cs
  fun_induction CodePoint.read cs with
  | case1 => nofun
  | case2 c _ => exact List.forall_mem_singleton.mpr (below c)
  | case3 c _ => exact List.forall_mem_singleton.mpr (toNat_le c)
  | case4 c d rest _ ih => exact List.forall_mem_cons.mpr ⟨toNat_le d, ih⟩
  | case5 c d rest _ _ ih => exact List.forall_mem_cons.mpr ⟨below c, ih⟩
  | case6 c d rest _ _ ih => exact List.forall_mem_cons.mpr ⟨toNat_le c, ih⟩

end CpuLoad.JsonTexts
