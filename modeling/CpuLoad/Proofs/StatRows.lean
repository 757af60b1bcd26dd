import CpuLoad.Proofs.LoadAverages
import Mathlib.Data.List.Induction

/-!
What a statistics file means. Its lines of counters are those that begin with `cpu`. A text with a word among them, after
the first of a line, that denotes no integer is refused, and no other is (`rows_eq`). The rows of the others have the first
words of these lines for keys, each with the integers of the last line that begins with it (`lookup_entered`). The source
answers the row of `cpu` for all processors together and, for each of its processors, the row of `cpu` followed by the
decimal digits of its index (`run_aggregate`, `run_perProcessor`), and zeros where there is none.
-/
namespace CpuLoad.StatRows
open CpuLoad.Blank CpuLoad.Outcome CpuLoad.StatFile

/-! ### Lines of counters -/

/-- The lines of a text that begin with `cpu`. -/
def counterLines (text : String) : List (List Char) := (lines text.toList).filter fun line => ['c', 'p', 'u'] <+: line

/-- The first word of a line. -/
def nameOf (line : List Char) : String := String.ofList ((words line).headD [])

/-- The words of a line after its first one. -/
def countsOf (line : List Char) : List String := (words line).tail.map String.ofList

/-- The integers that the words after the first one denote. -/
def numbersOf (line : List Char) : List Int := (countsOf line).filterMap Numeral.int?

def IsNumeric (line : List Char) : Prop := ∀ word ∈ countsOf line, (Numeral.int? word).isSome

instance (line : List Char) : Decidable (IsNumeric line) := List.decidableBAll _ _

/-- A row of seven numbers: what is longer is cut off, and what is shorter is filled with zeros. -/
def sevenOf (numbers : List Int) : List Int := numbers.take 7 ++ List.replicate (7 - numbers.length) 0

/-- The last of some lines that have a given first word. -/
def lastLine? (name : String) (ls : List (List Char)) : Option (List Char) :=
  (ls.filter fun line => nameOf line == name).getLast?

theorem toList_ofList (numbers : List Int) : (Snapshot.ofList numbers).toList = sevenOf numbers := by
  rcases numbers with _ | ⟨a, _ | ⟨b, _ | ⟨c, _ | ⟨d, _ | ⟨e, _ | ⟨f, _ | ⟨g, rest⟩⟩⟩⟩⟩⟩⟩ <;>
    simp [Snapshot.ofList, Snapshot.toList, sevenOf]

theorem words_ne_nil {c : Char} (visible : isBlank c = false) (rest : List Char) : words (c :: rest) ≠ [] := by
  rw [words.eq_def]
  dsimp only
  rw [visible]
  cases rest with
  | nil => exact List.cons_ne_nil _ _
  | cons d rest =>
    dsimp only
    cases isBlank d with
    | true => exact List.cons_ne_nil _ _
    | false => cases words (d :: rest) <;> exact List.cons_ne_nil _ _

theorem words_of_isCounterLine {line : List Char} (counts : isCounterLine line) :
    (words line).map String.ofList = nameOf line :: countsOf line := by
  obtain ⟨rest, rfl⟩ := List.isPrefixOf_iff_prefix.mp counts
  obtain ⟨w, ws, split⟩ : ∃ w ws, words (['c', 'p', 'u'] ++ rest) = w :: ws :=
    List.exists_cons_of_ne_nil (words_ne_nil (by decide) _)
  unfold nameOf countsOf
  rw [split]
  rfl

/-- Words are read as integers together if each of them denotes one. -/
theorem mapM_toInt (counts : List String) :
    (counts.mapM fun word => (Value.text word).toInt) =
      if ∀ word ∈ counts, (Numeral.int? word).isSome then .ok (counts.filterMap Numeral.int?) else .error .notNumber := by
  induction counts with
  | nil => rfl
  | cons word rest ih =>
    rw [List.mapM_cons, ih]
    cases denoted : Numeral.int? word with
    | none =>
      have refused : (Value.text word).toInt = .error .notNumber := by simp only [Value.toInt, denoted]; rfl
      have some : ¬ ∀ w ∈ word :: rest, (Numeral.int? w).isSome = true := fun all => by
        have own := all word (List.mem_cons_self ..)
        rw [denoted] at own
        cases own
      rw [refused, if_neg some]
      rfl
    | some n =>
      have read : (Value.text word).toInt = .ok n := by simp only [Value.toInt, denoted]; rfl
      rw [read, List.filterMap_cons_some denoted]
      simp only [List.forall_mem_cons, denoted, Option.isSome_some, true_and]
      split_ifs <;> rfl

theorem counters_eq (line : List Char) :
    counters (countsOf line) =
      if IsNumeric line then .ok (Snapshot.ofList (numbersOf line)) else .error .notNumber := by
  unfold counters
  by_cases numeric : IsNumeric line
  · rw [(mapM_toInt (countsOf line)).trans (if_pos numeric), if_pos numeric]
    rfl
  · rw [(mapM_toInt (countsOf line)).trans (if_neg numeric), if_neg numeric]
    rfl

/-- The rows after those of some lines of counters. -/
def entered (rows : List (String × Snapshot)) (ls : List (List Char)) : List (String × Snapshot) :=
  ls.foldl (fun rows line => Rows.enter (nameOf line) (Snapshot.ofList (numbersOf line)) rows) rows

theorem rowsFrom_eq (rows : List (String × Snapshot)) (ls : List (List Char)) :
    rowsFrom rows ls =
      if ∀ line ∈ ls.filter isCounterLine, IsNumeric line then .ok (entered rows (ls.filter isCounterLine))
      else .error .notNumber := by
  -- Each line of counters enters its row before the rest is read, so the rows vary.
  induction ls generalizing rows with
  | nil => rfl
  | cons line rest ih =>
    by_cases counts : isCounterLine line
    · rw [rowsFrom, if_pos counts, words_of_isCounterLine counts, List.filter_cons_of_pos counts]
      dsimp only
      rw [counters_eq]
      simp only [List.forall_mem_cons]
      by_cases numeric : IsNumeric line
      · rw [if_pos numeric]
        simp only [numeric, true_and]
        exact ih _
      · rw [if_neg numeric, if_neg fun all => numeric all.1]
        rfl
    · rw [rowsFrom, if_neg counts, List.filter_cons_of_neg counts, ih]

/-! ### Rows of a text -/

variable {text name : String} {ls : List (List Char)} {rows : List (String × Snapshot)}

theorem rows_eq (text : String) :
    StatFile.rows text =
      if ∀ line ∈ counterLines text, IsNumeric line then .ok (entered [] (counterLines text)) else .error .notNumber := by
  have same : counterLines text = (lines text.toList).filter isCounterLine :=
    List.filter_congr fun line _ =>
      Bool.eq_iff_iff.mpr (decide_eq_true_iff.trans List.isPrefixOf_iff_prefix.symm)
  rw [same]
  exact rowsFrom_eq [] _

theorem lastLine_append (name : String) (ls : List (List Char)) (line : List Char) :
    lastLine? name (ls ++ [line]) = if nameOf line = name then some line else lastLine? name ls := by
  unfold lastLine?
  by_cases own : nameOf line = name <;> simp [own]

/-- A name has the row of the last line that begins with it, or else the row it had before. -/
theorem lookup_entered (name : String) (ls : List (List Char)) (rows : List (String × Snapshot)) :
    (entered rows ls).lookup name =
      ((lastLine? name ls).map fun line => Snapshot.ofList (numbersOf line)).or (rows.lookup name) := by
  induction ls using List.reverseRecOn with
  | nil => rfl
  | append_singleton ls line ih =>
    have step : entered rows (ls ++ [line]) =
        Rows.enter (nameOf line) (Snapshot.ofList (numbersOf line)) (entered rows ls) := List.foldl_append ..
    rw [step, Rows.lookup_enter, lastLine_append, ih]
    by_cases own : nameOf line = name
    · simp [own]
    · simp [own, Ne.symm own]

theorem mem_keys_entered :
    name ∈ (entered rows ls).map Prod.fst ↔ (∃ line ∈ ls, nameOf line = name) ∨ name ∈ rows.map Prod.fst := by
  induction ls generalizing rows with
  | nil => simp [entered]
  | cons line ls ih =>
    show name ∈ (entered (Rows.enter _ _ rows) ls).map Prod.fst ↔ _
    rw [ih, Rows.mem_keys_enter, List.exists_mem_cons_iff]
    constructor
    · rintro (later | rfl | old)
      · exact .inl (.inr later)
      · exact .inl (.inl rfl)
      · exact .inr old
    · rintro ((rfl | later) | old)
      · exact .inr (.inl rfl)
      · exact .inl later
      · exact .inr (.inr old)

theorem nodup_keys_entered (once : (rows.map Prod.fst).Nodup) : ((entered rows ls).map Prod.fst).Nodup := by
  induction ls generalizing rows with
  | nil => exact once
  | cons line ls ih => exact ih (Rows.nodup_keys_enter once)

theorem rows_eq_ok_iff :
    StatFile.rows text = .ok rows ↔
      (∀ line ∈ counterLines text, IsNumeric line) ∧ rows = entered [] (counterLines text) := by
  rw [rows_eq]
  split_ifs with numeric
  · exact ⟨fun same => ⟨numeric, (Except.ok.inj same).symm⟩, fun same => congrArg Except.ok same.2.symm⟩
  · exact ⟨by rintro ⟨⟩, fun contra => absurd contra.1 numeric⟩

theorem rows_eq_error_iff {e : Fault} :
    StatFile.rows text = .error e ↔
      e = .notNumber ∧ ∃ line ∈ counterLines text, ∃ word ∈ countsOf line, Numeral.int? word = none := by
  have refused : (¬ ∀ line ∈ counterLines text, IsNumeric line) ↔
      ∃ line ∈ counterLines text, ∃ word ∈ countsOf line, Numeral.int? word = none := by
    simp [IsNumeric]
  rw [rows_eq, ← refused]
  split_ifs with numeric
  · exact ⟨by rintro ⟨⟩, fun contra => absurd numeric contra.2⟩
  · exact ⟨fun same => ⟨(Except.error.inj same).symm, numeric⟩, fun same => congrArg Except.error same.1.symm⟩

theorem map_int_of_isSome {counts : List String} (numeric : ∀ word ∈ counts, (Numeral.int? word).isSome) :
    counts.map Numeral.int? = (counts.filterMap Numeral.int?).map some := by
  induction counts with
  | nil => rfl
  | cons word rest ih =>
    obtain ⟨first, others⟩ := List.forall_mem_cons.mp numeric
    obtain ⟨n, denoted⟩ := Option.isSome_iff_exists.mp first
    rw [List.map_cons, List.filterMap_cons_some denoted, List.map_cons, denoted, ih others]

/-! ### Rows of a source -/

/-- The seven numbers that a text has under a name, zeros if it has none. So has a file that cannot be opened. -/
def ticksUnder (name : String) (found : Option String) : List Int :=
  ((found.bind fun text => lastLine? name (counterLines text)).map fun line => sevenOf (numbersOf line)).getD
    (List.replicate 7 0)

theorem toList_row (read : StatFile.rows text = .ok rows) (name : String) :
    ((rows.lookup name).getD .zero).toList = ticksUnder name (some text) := by
  obtain ⟨_, rfl⟩ := rows_eq_ok_iff.mp read
  unfold ticksUnder
  rw [lookup_entered, Option.bind_some]
  cases lastLine? name (counterLines text) with
  | none => rfl
  | some line => exact toList_ofList (numbersOf line)

theorem toList_toString (n : Nat) : (toString n).toList = DecimalDigit.digitsOf n := String.toList_ofList

/-- The name of a processor is longer than that of all together. -/
theorem processorName_ne (i : Nat) : "cpu" ++ toString i ≠ "cpu" := by
  intro same
  have lists := congrArg String.toList same
  rw [String.toList_append, toList_toString] at lists
  exact Nat.toDigits_ne_nil (List.append_right_eq_self.mp lists)

theorem processorName_inj {i j : Nat} (same : "cpu" ++ toString i = "cpu" ++ toString j) : i = j := by
  have lists := congrArg String.toList same
  rw [String.toList_append, String.toList_append] at lists
  exact CollectedBatch.indexText_inj (String.toList_inj.mp (List.append_cancel_left lists))

section
variable {ω : Type} [Files (StateM ω)] {root deviceRoot : String} {processors : Option Int} {platform : Identity}
  {found : Option String} {world left : ω}

theorem run_statRows (opens : Opens (root ++ "/stat") world found left) :
    (ProcSource.statRows root : ExceptT Fault (StateM ω) _).run.run world =
      ((found.map StatFile.rows).getD (.ok []), left) := by
  refine (run_bind_ok (run_readOrNote opens)).trans ?_
  cases found with
  | none => rfl
  | some text => exact run_ofExcept (StatFile.rows text) left

theorem run_aggregate (opens : Opens (root ++ "/stat") world found left)
    (read : (found.map StatFile.rows).getD (.ok []) = .ok rows) :
    (ProcSource.source root deviceRoot processors platform : Source (StateM ω)).aggregate.run.run world =
      (.ok (aggregate rows).toReading, left) := by
  have known := run_statRows opens
  rw [read] at known
  exact run_bind_ok known

theorem run_perProcessor (opens : Opens (root ++ "/stat") world found left)
    (read : (found.map StatFile.rows).getD (.ok []) = .ok rows) :
    (ProcSource.source root deviceRoot processors platform : Source (StateM ω)).perProcessor.run.run world =
      (.ok (.list ((List.range (Source.countOr 1 processors).toNat).map fun i => (processor rows i).toReading)), left) := by
  have known := run_statRows opens
  rw [read] at known
  exact run_bind_ok known

theorem toReading_row (read : (found.map StatFile.rows).getD (.ok []) = .ok rows) (name : String) :
    ((rows.lookup name).getD .zero).toReading = .list ((ticksUnder name found).map .int) := by
  unfold Snapshot.toReading
  cases found with
  | none =>
    cases read
    rfl
  | some text => rw [toList_row read]

end

/-- A text is refused exactly if a line of counters has a word after its first one that denotes no integer. Of any other
text the rows have the first words of these lines for keys, each once, with the integers of the last line that begins with
it, seven of them. A source whose file of statistics has such a text, or cannot be opened, answers the row of `cpu` for all
processors together and one row for each processor, that of `cpu` and the decimal digits of its index, by which no two
processors are confused. -/
theorem stat_files_mean_their_last_lines :
    (∀ text e, StatFile.rows text = .error e ↔
      e = .notNumber ∧ ∃ line ∈ counterLines text, ∃ word ∈ countsOf line, Numeral.int? word = none) ∧
    (∀ text rows, StatFile.rows text = .ok rows →
      (rows.map Prod.fst).Nodup ∧
      (∀ name, name ∈ rows.map Prod.fst ↔ ∃ line ∈ counterLines text, nameOf line = name) ∧
      ∀ name line, lastLine? name (counterLines text) = some line →
        ∃ numbers row, (countsOf line).map Numeral.int? = numbers.map some ∧ rows.lookup name = some row ∧
          row.toList = sevenOf numbers) ∧
    (∀ i j : Nat, "cpu" ++ toString i ≠ "cpu" ∧ ("cpu" ++ toString i = "cpu" ++ toString j → i = j)) ∧
    ∀ (ω : Type) [Files (StateM ω)] (root deviceRoot : String) (processors : Option Int) (platform : Identity)
      (found : Option String) (world left : ω), Opens (root ++ "/stat") world found left →
      (∀ text ∈ found, ∃ rows, StatFile.rows text = .ok rows) →
      let source : Source (StateM ω) := ProcSource.source root deviceRoot processors platform
      source.aggregate.run.run world = (.ok (.list ((ticksUnder "cpu" found).map .int)), left) ∧
      source.perProcessor.run.run world =
        (.ok (.list ((List.range source.logical.toNat).map fun i =>
          .list ((ticksUnder ("cpu" ++ toString i) found).map .int))), left) := by
  refine ⟨fun _ _ => rows_eq_error_iff, ?_, fun i j => ⟨processorName_ne i, processorName_inj⟩, ?_⟩
  · intro text rows read
    obtain ⟨numeric, rfl⟩ := rows_eq_ok_iff.mp read
    refine ⟨nodup_keys_entered List.nodup_nil, fun name => ?_, fun name line last => ?_⟩
    · rw [mem_keys_entered]
      exact or_iff_left List.not_mem_nil
    · have member : line ∈ counterLines text := List.mem_of_mem_filter (List.mem_of_getLast? last)
      refine ⟨numbersOf line, Snapshot.ofList (numbersOf line), map_int_of_isSome (numeric line member), ?_,
        toList_ofList _⟩
      rw [lookup_entered, last]
      rfl
  · intro ω _ root deviceRoot processors platform found world left opens read
    obtain ⟨rows, known⟩ : ∃ rows, (found.map StatFile.rows).getD (.ok []) = .ok rows := by
      cases found with
      | none => exact ⟨[], rfl⟩
      | some text => exact read text rfl
    refine ⟨(run_aggregate opens known).trans ?_, (run_perProcessor opens known).trans ?_⟩
    · rw [← toReading_row known]
      rfl
    · simp only [← toReading_row known]
      rfl

/-- A file with two lines for all processors together, in which the first of two processors has no line and the eleventh
    has one. -/
def twoOfEleven : LoadAverages.Shelf :=
  ⟨[("/proc/stat", "intr 7\ncpu10 8\ncpu 1 2\ncpu1 4 5 6 7 8 9 10 11\ncpu 9\n")]⟩

theorem stat_files_mean_their_last_lines_two :
    let source : Source (StateM LoadAverages.Shelf) := ProcSource.source "/proc" "/sys" (some 2) {}
    source.aggregate.run.run twoOfEleven = (.ok (.list ([9, 0, 0, 0, 0, 0, 0].map .int)), twoOfEleven) ∧
      source.perProcessor.run.run twoOfEleven =
        (.ok (.list [.list ([0, 0, 0, 0, 0, 0, 0].map .int), .list ([4, 5, 6, 7, 8, 9, 10].map .int)]), twoOfEleven) := by
  have opens : Opens "/proc/stat" twoOfEleven _ twoOfEleven := .opened rfl rfl
  have answers := stat_files_mean_their_last_lines.2.2.2 _ "/proc" "/sys" (some 2) {} _ _ _ opens
    fun text known => by
      cases known
      exact ⟨_, rfl⟩
  exact answers

end CpuLoad.StatRows
