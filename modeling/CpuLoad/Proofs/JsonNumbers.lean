import CpuLoad.Proofs.JsonReader
import CpuLoad.Shortest
import Mathlib.Data.List.TakeWhile
import Mathlib.Tactic.IntervalCases

/-!
Every number that a line holds is a number of JSON. The digits of a number above zero begin with none (`digitsOf_eq_cons`),
and the shortest decimal of a double above zero is above zero (`shortest_pos`); so neither the digits of an integer nor those
before the point of a double have a zero too many in front.
-/
namespace CpuLoad.JsonNumbers
open CpuLoad.DecimalDigit CpuLoad.JsonReader CpuLoad.Shortest

/-! ### Digits -/

theorem isDigit_of_mem_digitsOf {n : Nat} {c : Char} (member : c ∈ digitsOf n) : c.isDigit :=
  Nat.isDigit_of_mem_toDigits (by decide) (by decide) member

theorem digitsOf_eq_if (n : Nat) :
    digitsOf n = if n < 10 then [Nat.digitChar n] else digitsOf (n / 10) ++ [Nat.digitChar (n % 10)] :=
  Nat.toDigits_eq_if (by decide)

theorem digitChar_ne_zero {d : Nat} (positive : 0 < d) (digit : d < 10) : Nat.digitChar d ≠ '0' := by
  interval_cases d <;> decide

/-- The digits of a number above zero begin with another one than zero. -/
theorem digitsOf_eq_cons {n : Nat} (positive : 0 < n) : ∃ d ds, digitsOf n = d :: ds ∧ d ≠ '0' := by
  induction n using Nat.strong_induction_on with
  | _ n ih =>
    rw [digitsOf_eq_if]
    split
    · next single => exact ⟨_, [], rfl, digitChar_ne_zero positive single⟩
    · next several =>
      obtain ⟨d, ds, digits, first⟩ := ih (n / 10) (by omega) (by omega)
      exact ⟨d, ds ++ [Nat.digitChar (n % 10)], by rw [digits, List.cons_append], first⟩

theorem digitsOf_ne_nil (n : Nat) : digitsOf n ≠ [] := by
  rw [digitsOf_eq_if]
  split
  · simp
  · simp

/-- As many zeros as a number has at its end, it is divisible by powers of ten. -/
theorem pow_zeros_dvd (n : Nat) : 10 ^ ((digitsOf n).reverse.takeWhile (· == '0')).length ∣ n := by
  induction n using Nat.strong_induction_on with
  | _ n ih =>
    rw [digitsOf_eq_if]
    split
    · next single =>
      by_cases zero : n = 0
      · subst zero
        exact dvd_zero _
      · have other := digitChar_ne_zero (Nat.pos_of_ne_zero zero) single
        simp [other]
    · next several =>
      rw [List.reverse_append, List.reverse_singleton, List.singleton_append, List.takeWhile_cons]
      split
      · next zero =>
        have none : n % 10 = 0 := by
          by_contra some
          have other := digitChar_ne_zero (Nat.pos_of_ne_zero some) (Nat.mod_lt n (by decide))
          simp [other] at zero
        have tenth : n = n / 10 * 10 := by omega
        have smaller := ih (n / 10) (by omega)
        rw [List.length_cons, Nat.pow_succ, tenth]
        rw [Nat.mul_div_cancel _ (by decide)]
        exact Nat.mul_dvd_mul_right smaller 10
      · simp

/-! ### Numbers of JSON -/

/-- Characters that do not go on with a digit. -/
def StopsDigits (cs : List Char) : Prop := ∀ c ∈ cs.head?, c.isDigit = false

/-- What is taken from characters of one kind, before one of another kind or the end. -/
theorem span_append {p : Char → Bool} {front rest : List Char} (inside : ∀ c ∈ front, p c)
    (stops : ∀ c ∈ rest.head?, p c = false) :
    (front ++ rest).takeWhile p = front ∧ (front ++ rest).dropWhile p = rest := by
  rw [List.takeWhile_append_of_pos inside, List.dropWhile_append_of_pos inside]
  cases rest with
  | nil => simp
  | cons c rest =>
    have other : p c = false := stops c rfl
    simp [other]

theorem isDigits_of_mem {ds : List Char} (some : ds ≠ []) (digits : ∀ c ∈ ds, c.isDigit) : isDigits ds := by
  simp [isDigits, some, List.all_eq_true.mpr digits]

theorem isUnsigned_append {whole rest : List Char} (digits : ∀ c ∈ whole, c.isDigit) (stops : StopsDigits rest)
    (lead : whole = ['0'] ∨ ∃ d ds, whole = d :: ds ∧ d ≠ '0') (fraction : isFraction rest) : isUnsigned (whole ++ rest) := by
  obtain ⟨taken, left⟩ := span_append digits stops
  unfold isUnsigned
  rw [taken, left, fraction]
  rcases lead with rfl | ⟨d, ds, rfl, other⟩
  · rfl
  · simp [other]

theorem isFraction_point {ds rest : List Char} (some : ds ≠ []) (digits : ∀ c ∈ ds, c.isDigit) (stops : StopsDigits rest)
    (exponent : isExponent rest) : isFraction ('.' :: (ds ++ rest)) := by
  obtain ⟨taken, left⟩ := span_append digits stops
  show (isDigits ((ds ++ rest).takeWhile Char.isDigit) && isExponent ((ds ++ rest).dropWhile Char.isDigit)) = true
  rw [taken, left, exponent, isDigits_of_mem some digits]
  rfl

theorem isFraction_digits {ds : List Char} (some : ds ≠ []) (digits : ∀ c ∈ ds, c.isDigit) : isFraction ('.' :: ds) := by
  have fraction := isFraction_point some digits (nofun : StopsDigits []) rfl
  rwa [List.append_nil] at fraction

theorem isNumber_of_isUnsigned {cs : List Char} (unsigned : isUnsigned cs) (negative : Bool) :
    isNumber (if negative then '-' :: cs else cs) := by
  cases negative with
  | true => exact unsigned
  | false =>
    simp only [Bool.false_eq_true, ↓reduceIte]
    unfold isNumber
    split
    · cases unsigned
    · exact unsigned

theorem isWordChar_of_isDigit {c : Char} (digit : c.isDigit) : isWordChar c := by
  simp [isWordChar, Char.isAlphanum, digit]

theorem isWordChar_of_isDigits {cs : List Char} (digits : isDigits cs) : ∀ c ∈ cs, isWordChar c := by
  intro c member
  unfold isDigits at digits
  rw [Bool.and_eq_true, List.all_eq_true] at digits
  exact isWordChar_of_isDigit (digits.2 c member)

theorem isWordChar_of_isExponent {cs : List Char} (exponent : isExponent cs) : ∀ c ∈ cs, isWordChar c := by
  have letter {e : Char} (known : (e == 'e' || e == 'E') = true) : isWordChar e := by
    rcases Bool.or_eq_true_iff.mp known with small | large
    · rw [eq_of_beq small]
      rfl
    · rw [eq_of_beq large]
      rfl
  unfold isExponent at exponent
  split at exponent
  · nofun
  all_goals
    obtain ⟨first, digits⟩ := Bool.and_eq_true_iff.mp exponent
    have rest := isWordChar_of_isDigits digits
    simp only [List.forall_mem_cons]
  · exact ⟨letter first, rfl, rest⟩
  · exact ⟨letter first, rfl, rest⟩
  · exact ⟨letter first, rest⟩

theorem isWordChar_of_isFraction {cs : List Char} (fraction : isFraction cs) : ∀ c ∈ cs, isWordChar c := by
  unfold isFraction at fraction
  split at fraction
  · next rest =>
    obtain ⟨digits, exponent⟩ := Bool.and_eq_true_iff.mp fraction
    rw [← List.takeWhile_append_dropWhile (p := Char.isDigit) (l := rest)]
    intro c member
    rcases List.mem_cons.mp member with rfl | member
    · rfl
    rcases List.mem_append.mp member with front | back
    · exact isWordChar_of_isDigits digits c front
    · exact isWordChar_of_isExponent exponent c back
  · exact isWordChar_of_isExponent fraction

theorem isWordChar_of_isUnsigned {cs : List Char} (unsigned : isUnsigned cs) : ∀ c ∈ cs, isWordChar c := by
  unfold isUnsigned at unsigned
  obtain ⟨_, fraction⟩ := Bool.and_eq_true_iff.mp unsigned
  rw [← List.takeWhile_append_dropWhile (p := Char.isDigit) (l := cs)]
  intro c member
  rcases List.mem_append.mp member with front | back
  · exact isWordChar_of_isDigit (List.mem_takeWhile_imp front)
  · exact isWordChar_of_isFraction fraction c back

theorem isWordChar_of_isNumber {cs : List Char} (number : isNumber cs) : ∀ c ∈ cs, isWordChar c := by
  unfold isNumber at number
  split at number
  · exact List.forall_mem_cons.mpr ⟨rfl, isWordChar_of_isUnsigned number⟩
  · exact isWordChar_of_isUnsigned number

/-! ### Integers -/

theorem lead_digitsOf (n : Nat) : digitsOf n = ['0'] ∨ ∃ d ds, digitsOf n = d :: ds ∧ d ≠ '0' := by
  rcases Nat.eq_zero_or_pos n with rfl | positive
  · exact .inl rfl
  · exact .inr (digitsOf_eq_cons positive)

theorem isNumber_intText (n : Int) : isNumber (intText n).toList := by
  have unsigned : isUnsigned (digitsOf n.natAbs ++ []) :=
    isUnsigned_append (fun _ => isDigit_of_mem_digitsOf) nofun (lead_digitsOf _) rfl
  rw [List.append_nil] at unsigned
  unfold intText
  split
  · rw [String.toList_ofList]
    exact isNumber_of_isUnsigned unsigned true
  · rw [String.toList_ofList]
    exact isNumber_of_isUnsigned unsigned false

/-! ### Doubles -/

theorem quarters_pos {m : Nat} (positive : 0 < m) (e : Int) : 0 < (quarters m e).1 := by
  unfold quarters
  split <;> omega

/-- No grid is so coarse that its point zero reads back as a double above zero. -/
theorem onGrid_pos {m c : Nat} {e s : Int} (positive : 0 < m) (found : onGrid m e s = some c) : 0 < c := by
  unfold onGrid at found
  dsimp only at found
  have unit_pos : 0 < 2 ^ (e - 2).toNat * 10 ^ (-s).toNat := Nat.mul_pos (Nat.two_pow_pos _) (Nat.pow_pos (by decide))
  generalize 2 ^ (e - 2).toNat * 10 ^ (-s).toNat = unit at found unit_pos
  generalize 10 ^ s.toNat * 2 ^ (-(e - 2)).toNat = grid at found
  generalize 4 * m * unit / grid = below at found
  rcases Nat.eq_zero_or_pos below with rfl | some
  · have low : 0 < (quarters m e).1 * unit := Nat.mul_pos (quarters_pos positive e) unit_pos
    have outside : (if m % 2 = 0 then
        decide ((quarters m e).1 * unit ≤ 0 * grid) && decide (0 * grid ≤ (quarters m e).2 * unit)
      else decide ((quarters m e).1 * unit < 0 * grid) && decide (0 * grid < (quarters m e).2 * unit)) = false := by
      rw [Nat.zero_mul, decide_eq_false (Nat.not_le.mpr low), decide_eq_false (Nat.not_lt_zero _)]
      simp
    rw [outside] at found
    split at found
    · cases found
    · contradiction
    · cases found
      exact Nat.one_pos
    · contradiction
  · have either : c = below ∨ c = below + 1 := by
      split at found
      · cases found
      · exact .inl (Option.some.inj found).symm
      · exact .inr (Option.some.inj found).symm
      · split_ifs at found
        · exact .inl (Option.some.inj found).symm
        · exact .inr (Option.some.inj found).symm
        · exact .inl (Option.some.inj found).symm
        · exact .inr (Option.some.inj found).symm
    omega

theorem trim_pos {x : Decimal} (positive : 0 < x.digits) : 0 < x.trim.digits := by
  unfold Decimal.trim
  dsimp only
  rw [if_neg (Nat.ne_of_gt positive)]
  exact Nat.div_pos (Nat.le_of_dvd positive (pow_zeros_dvd x.digits)) (Nat.pow_pos (by decide))

/-- The shortest decimal of a double above zero is above zero. -/
theorem shortest_pos {m : Nat} (positive : 0 < m) (e : Int) : 0 < (shortest m e).digits := by
  unfold shortest
  dsimp only
  generalize (if 0 ≤ e then decade (m * 2 ^ e.toNat) 1 else decade m (2 ^ (-e).toNat)) = k
  apply trim_pos
  cases found : (List.range 17).findSome? fun n =>
      (onGrid m e (k - Int.ofNat (n + 1))).map fun c => Decimal.mk c (k - Int.ofNat (n + 1)) with
  | none => exact positive
  | some x =>
    obtain ⟨n, _, point⟩ := List.exists_of_findSome?_eq_some found
    obtain ⟨c, inside, rfl⟩ := Option.map_eq_some_iff.mp point
    exact onGrid_pos positive inside

section
variable {x : Decimal}

theorem isDigit_of_mem_zeros {n : Nat} {c : Char} (member : c ∈ List.replicate n '0') : c.isDigit := by
  rw [(List.mem_replicate.mp member).2]
  rfl

theorem isDigit_of_mem_append {xs ys : List Char} (front : ∀ c ∈ xs, c.isDigit) (back : ∀ c ∈ ys, c.isDigit) :
    ∀ c ∈ xs ++ ys, c.isDigit := by
  intro c member
  rcases List.mem_append.mp member with left | right
  · exact front c left
  · exact back c right

theorem isUnsigned_positional (positive : 0 < x.digits) : isUnsigned (positional x) := by
  obtain ⟨d, ds, digits, first⟩ := digitsOf_eq_cons positive
  have all : ∀ c ∈ digitsOf x.digits, c.isDigit := fun _ => isDigit_of_mem_digitsOf
  have stops (cs : List Char) : StopsDigits ('.' :: cs) := by simp [StopsDigits]
  unfold positional
  dsimp only
  generalize point_eq : Int.ofNat (digitsOf x.digits).length + x.exponent = point
  split
  · have behind := isDigit_of_mem_append (fun _ => isDigit_of_mem_zeros (n := (-point).toNat)) all
    have some : List.replicate (-point).toNat '0' ++ digitsOf x.digits ≠ [] := by simp [digitsOf_ne_nil]
    have zero : ∀ c ∈ ['0'], c.isDigit := List.forall_mem_singleton.mpr rfl
    have unsigned := isUnsigned_append zero (stops _) (.inl rfl) (isFraction_digits some behind)
    exact unsigned
  · next high =>
    split
    · have front := isDigit_of_mem_append all (fun _ => isDigit_of_mem_zeros (n := x.exponent.toNat))
      have lead : digitsOf x.digits ++ List.replicate x.exponent.toNat '0' = d :: (ds ++ List.replicate x.exponent.toNat '0') := by
        rw [digits, List.cons_append]
      exact isUnsigned_append front (stops _) (.inr ⟨d, _, lead, first⟩) rfl
    · next part =>
      obtain ⟨n, place⟩ : ∃ n, point.toNat = n + 1 := Nat.exists_eq_add_one.mpr (by omega)
      have short : n + 1 < (digitsOf x.digits).length := by
        rw [Int.ofNat_eq_natCast] at point_eq
        omega
      have lead : (digitsOf x.digits).take (n + 1) = d :: ds.take n := by rw [digits, List.take_succ_cons]
      have some : (digitsOf x.digits).drop (n + 1) ≠ [] := List.drop_eq_nil_iff.not.mpr (Nat.not_le.mpr short)
      rw [place]
      exact isUnsigned_append (fun c front => all c (List.mem_of_mem_take front)) (stops _) (.inr ⟨d, _, lead, first⟩)
        (isFraction_digits some fun c back => all c (List.mem_of_mem_drop back))

/-- An exponent with its sign, filled to two digits. -/
theorem isExponent_filled (negative : Bool) (n : Nat) :
    isExponent ('e' :: (if negative then '-' else '+') :: (List.replicate (2 - (digitsOf n).length) '0' ++ digitsOf n)) := by
  have digits := isDigit_of_mem_append (fun _ => isDigit_of_mem_zeros (n := 2 - (digitsOf n).length))
    (fun _ => isDigit_of_mem_digitsOf (n := n))
  have exponent := isDigits_of_mem (by simp [digitsOf_ne_nil]) digits
  cases negative with
  | true => exact exponent
  | false => exact exponent

theorem isUnsigned_scientific (positive : 0 < x.digits) : isUnsigned (scientific x) := by
  obtain ⟨d, ds, digits, first⟩ := digitsOf_eq_cons positive
  have all : ∀ c ∈ digitsOf x.digits, c.isDigit := fun _ => isDigit_of_mem_digitsOf
  unfold scientific
  dsimp only
  generalize power_eq : Int.ofNat (digitsOf x.digits).length + x.exponent - 1 = power
  have exponent := isExponent_filled (decide (power < 0)) power.natAbs
  simp only [decide_eq_true_eq] at exponent
  have stops (cs : List Char) : StopsDigits ('e' :: cs) := by simp [StopsDigits]
  rw [digits] at all ⊢
  rw [List.append_assoc, List.cons_append, List.cons_append]
  split
  · exact isUnsigned_append all (stops _) (.inr ⟨d, ds, rfl, first⟩) exponent
  · next several =>
    have some : ds ≠ [] := by
      rintro rfl
      exact several rfl
    have lead : ∀ c ∈ [d], c.isDigit := List.forall_mem_singleton.mpr (all d List.mem_cons_self)
    have behind : ∀ c ∈ ds, c.isDigit := fun c member => all c (List.mem_cons_of_mem d member)
    have point : StopsDigits ('.' :: (ds ++ 'e' :: (if power < 0 then '-' else '+') ::
        (List.replicate (2 - (digitsOf power.natAbs).length) '0' ++ digitsOf power.natAbs))) := by
      simp [StopsDigits]
    rw [List.append_assoc]
    exact isUnsigned_append lead point (.inr ⟨d, [], rfl, first⟩) (isFraction_point some behind (stops _) exponent)

/-- The text of a finite double. -/
theorem isNumber_text {y : Float} {negative : Bool} {m : Nat} {e : Int}
    (finite : Binary64.parts y = .finite negative m e) : isNumber (Shortest.text y).toList := by
  unfold Shortest.text
  rw [finite]
  dsimp only
  rw [String.toList_ofList]
  apply isNumber_of_isUnsigned
  split
  · rfl
  · next some =>
    have positive := shortest_pos (Nat.pos_of_ne_zero some) e
    unfold positiveText
    dsimp only
    split
    · exact isUnsigned_positional positive
    · exact isUnsigned_scientific positive

end

end CpuLoad.JsonNumbers
