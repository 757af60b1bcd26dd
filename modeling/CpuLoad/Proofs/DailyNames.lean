import CpuLoad.FileTree
import CpuLoad.Journal
import Mathlib.Data.List.Basic

/-!
Where the files of a journal stand. The names that lead to the file of a day are those of the journal's directory and one
more (`namesOf_fileOf`), and this one tells the day (`fileName_inj`). So the files of two days stand side by side in one
directory, at different places.
-/
namespace CpuLoad.DailyNames
open CpuLoad.Calendar CpuLoad.DecimalDigit CpuLoad.Location

/-! ### The name of a day -/

theorem number_padded (width n : Nat) : Nat.ofDigitChars 10 (padded width n).toList 0 = n := by
  simp [padded, digitsOf, Nat.ofDigitChars_append, Nat.ofDigitChars_replicate_zero]

theorem padded_inj {width m n : Nat} (same : (padded width m).toList = (padded width n).toList) : m = n := by
  rw [← number_padded width m, same, number_padded]

theorem isDigit_of_mem_padded {width n : Nat} {c : Char} (member : c ∈ (padded width n).toList) : c.isDigit := by
  rw [padded, String.toList_ofList, List.mem_append] at member
  rcases member with filling | digit
  · rw [(List.mem_replicate.mp filling).2]
    rfl
  · exact Nat.isDigit_of_mem_toDigits (by decide) (by decide) digit

theorem hyphen_notMem_padded {width n : Nat} : '-' ∉ (padded width n).toList := fun member =>
  absurd (isDigit_of_mem_padded member) (by decide)

/-- What stands before the first hyphen and what stands after it. -/
theorem append_hyphen_inj {xs ys front back : List Char} (left : '-' ∉ xs) (right : '-' ∉ ys)
    (same : xs ++ '-' :: front = ys ++ '-' :: back) : xs = ys ∧ front = back := by
  induction xs generalizing ys with
  | nil =>
    cases ys with
    | nil => exact ⟨rfl, List.tail_eq_of_cons_eq same⟩
    | cons y ys => exact absurd (List.head_eq_of_cons_eq same ▸ List.mem_cons_self ..) right
  | cons x xs ih =>
    cases ys with
    | nil => exact absurd (List.head_eq_of_cons_eq same ▸ List.mem_cons_self ..) left
    | cons y ys =>
      obtain ⟨rfl, rest⟩ := List.cons.inj same
      have ⟨inner, after⟩ := ih (List.not_mem_of_not_mem_cons left) (List.not_mem_of_not_mem_cons right) rest
      exact ⟨congrArg _ inner, after⟩

theorem toList_text (d : Date) : d.text.toList =
    (padded 1 d.year.toNat).toList ++ '-' :: ((padded 2 d.month).toList ++ '-' :: (padded 2 d.day).toList) := by
  simp [Date.text]

/-- A text tells its date, if it is that of a year from one on. -/
theorem text_inj {d other : Date} (positive : 1 ≤ other.year) (same : d.text = other.text) : d = other := by
  have chars := congrArg String.toList same
  rw [toList_text, toList_text] at chars
  obtain ⟨year, chars⟩ := append_hyphen_inj hyphen_notMem_padded hyphen_notMem_padded chars
  obtain ⟨month, day⟩ := append_hyphen_inj hyphen_notMem_padded hyphen_notMem_padded chars
  have years := padded_inj year
  obtain ⟨y, m, n⟩ := d
  obtain ⟨y', m', n'⟩ := other
  obtain rfl := padded_inj month
  obtain rfl := padded_inj day
  obtain rfl : y = y' := by
    dsimp only at years positive
    omega
  rfl

theorem fileName_inj {d other : Date} (positive : 1 ≤ other.year)
    (same : Journal.fileName d = Journal.fileName other) : d = other := by
  refine text_inj positive (String.toList_inj.mp ?_)
  have chars := congrArg String.toList same
  simpa [Journal.fileName] using chars

theorem year_of_dateOf {reading : Value} {d : Date} (dated : dateOf reading = .ok d) : 1 ≤ d.year := by
  unfold dateOf at dated
  cases second : secondOf reading with
  | error e =>
    rw [second] at dated
    cases dated
  | ok n =>
    rw [second] at dated
    by_cases counted : isCountedYear (ofSecond n).year
    · by_cases beyond : (ofSecond n).year < years.1 ∨ years.2 < (ofSecond n).year
      · simp [bind, Except.bind, counted, beyond] at dated
      · simp [bind, Except.bind, counted, beyond] at dated
        cases dated
        exact Int.not_lt.mp fun low => beyond (.inl low)
    · simp [bind, Except.bind, counted] at dated

/-! ### The names to a file -/

/-- A name that stands for itself. -/
structure IsPlain (name : String) : Prop where
  noSlash : '/' ∉ name.toList
  ne_empty : name.toList ≠ []
  ne_here : name.toList ≠ ['.']
  ne_above : name ≠ ".."

theorem isPlain_fileName (d : Date) : IsPlain (Journal.fileName d) := by
  have begins : ∃ rest, (Journal.fileName d).toList = 'c' :: 'p' :: rest := by
    refine ⟨"u-load-".toList ++ d.text.toList ++ ".jsonl".toList, ?_⟩
    simp [Journal.fileName]
  obtain ⟨rest, begins⟩ := begins
  refine ⟨fun slash => ?_, by simp [begins], by simp [begins], fun above => ?_⟩
  · have digit {width n : Nat} : '/' ∉ (padded width n).toList := fun member =>
      absurd (isDigit_of_mem_padded member) (by decide)
    simp [Journal.fileName, toList_text, digit] at slash
  · have chars := congrArg String.toList above
    simp [begins] at chars

theorem split_ne_nil (cs : List Char) : split cs ≠ [] := by
  cases cs with
  | nil => simp [split]
  | cons c cs =>
    unfold split
    split <;> simp

theorem split_other {c : Char} (other : c ≠ '/') (cs : List Char) :
    split (c :: cs) = (c :: (split cs).headI) :: (split cs).tail := by
  have some := split_ne_nil cs
  rw [split.eq_def]
  dsimp only
  split
  · exact absurd rfl other
  · next none => exact absurd none some
  · next known => simp [known]

theorem split_append_slash (xs ys : List Char) : split (xs ++ '/' :: ys) = split xs ++ split ys := by
  induction xs with
  | nil => rfl
  | cons x xs ih =>
    by_cases slash : x = '/'
    · subst slash
      exact congrArg (List.cons []) ih
    · obtain ⟨name, names, known⟩ := List.exists_cons_of_ne_nil (split_ne_nil xs)
      rw [List.cons_append, split_other slash, split_other slash, ih, known]
      rfl

theorem split_of_noSlash {cs : List Char} (noSlash : '/' ∉ cs) : split cs = [cs] := by
  induction cs with
  | nil => rfl
  | cons c cs ih =>
    rw [List.mem_cons, not_or] at noSlash
    rw [split_other (Ne.symm noSlash.1), ih noSlash.2]
    rfl

/-- The names of a location with one more behind a slash. -/
theorem namesOf_append {front : List Char} {name : String} (plain : IsPlain name) (path : String)
    (chars : path.toList = front ++ '/' :: name.toList) : namesOf path = namesOf (String.ofList front) ++ [name] := by
  simp [namesOf, chars, split_append_slash, split_of_noSlash plain.noSlash, plain.ne_empty, plain.ne_here]

theorem namesOf_join {name : String} (plain : IsPlain name) (directory : String) :
    namesOf (join directory name) = namesOf (normal directory) ++ [name] := by
  unfold join
  by_cases here : normal directory = "."
  · have alone : namesOf name = [name] := by
      simp [namesOf, split_of_noSlash plain.noSlash, plain.ne_empty, plain.ne_here]
    simp [here, alone]
    decide
  · by_cases root : (normal directory).endsWith "/"
    · obtain ⟨front, ends⟩ : ∃ front, (normal directory).toList = front ++ ['/'] := by
        rw [← String.endsWith_toSlice, String.Slice.endsWith_string_iff] at root
        simpa [List.IsSuffix, eq_comm] using root
      have whole : namesOf (normal directory) = namesOf (String.ofList front) := by
        simp [namesOf, ends, split_append_slash, split]
      simp only [here, root, ↓reduceIte, whole]
      exact namesOf_append plain _ (by simp [ends])
    · simp only [here, root, ↓reduceIte, Bool.false_eq_true]
      have chars : (normal directory ++ "/" ++ name).toList = (normal directory).toList ++ '/' :: name.toList := by simp
      rw [namesOf_append plain _ chars, String.ofList_toList]

theorem namesOf_fileOf (directory : String) (d : Date) :
    namesOf (Journal.fileOf directory d) = namesOf (normal directory) ++ [Journal.fileName d] :=
  namesOf_join (isPlain_fileName d) directory

end CpuLoad.DailyNames
