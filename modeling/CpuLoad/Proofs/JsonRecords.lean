import CpuLoad.Proofs.DayRollover
import CpuLoad.Proofs.JsonValues

/-!
What a journal writes for a batch: one line of JSON for each sample, in the order of the batch. No line breaks inside, since
only printable characters stand in it, and a line is read back as an object of what its sample holds. Samples of texts and
of finite numbers that are written have such lines (`Record`). A number of too many digits has none, and neither has
anything that is exported when the clock shows no date (`a_finite_number_may_be_left_out`).
-/
namespace CpuLoad.JsonRecords
open CpuLoad.Calendar CpuLoad.CodePoint CpuLoad.DailyFiles CpuLoad.DayRollover CpuLoad.DecimalDigit CpuLoad.FaithfulFiles
  CpuLoad.FilePlaces CpuLoad.HeldLines CpuLoad.JsonLine CpuLoad.JsonReader CpuLoad.JsonTexts CpuLoad.JsonValues

/-! ### Lines -/

theorem not_isLineEnd {c : Char} (plain : isPlain c) : Blank.isLineEnd c = false := by
  simp only [isPlain, Bool.and_eq_true, decide_eq_true_eq] at plain
  unfold Blank.isLineEnd
  simp only [Bool.or_eq_false_iff, Bool.and_eq_false_iff, decide_eq_false_iff_not, beq_eq_false_iff_ne]
  omega

theorem lines_newline {line : List Char} (plain : ∀ c ∈ line, isPlain c) (rest : List Char) :
    Blank.lines (line ++ '\n' :: rest) = line :: Blank.lines rest := by
  induction line with
  | nil => rfl
  | cons c line ih =>
    obtain ⟨first, others⟩ := List.forall_mem_cons.mp plain
    have no := not_isLineEnd first
    have feed : c ≠ '\r' := by
      rintro rfl
      cases first
    rw [List.cons_append, Blank.lines.eq_3, no, if_neg Bool.false_ne_true, ih others]
    rintro _ rfl
    exact absurd rfl feed

/-- Texts that are each put on a line of their own are the lines of what that gives. -/
theorem lines_flatMap {texts : List (List Char)} (plain : ∀ line ∈ texts, ∀ c ∈ line, isPlain c) :
    Blank.lines (texts.flatMap (· ++ ['\n'])) = texts := by
  induction texts with
  | nil => rfl
  | cons line texts ih =>
    obtain ⟨first, others⟩ := List.forall_mem_cons.mp plain
    rw [List.flatMap_cons, List.append_assoc, List.singleton_append, lines_newline first, ih others]

/-- The line of a sample is its written form and a newline. -/
theorem lineOf_of_encode {s : Sample} {cs : List Char} (written : encode (recordOf s) = .ok cs)
    (ends : s.description.beginsAgain = false) : lineOf s = .ok (String.ofList (cs ++ ['\n'])) := by
  have form : hasForm (recordOf s) := (exists_encode_iff _).mp ⟨cs, written⟩
  unfold lineOf
  rw [beginsAgain_of_hasForm _ form, ends, written]
  rfl

/-! ### Records -/

/-- Whether a value is a finite number of no more digits than are written. -/
def isWritten : Value → Bool
  | .int n => isWritable n
  | .float x => (Binary64.value? x).isSome
  | _ => false

/-- A sample of texts and of finite numbers that are written, with a description that has an end. -/
structure Record where
  name : String
  unit : String
  labels : List (String × String)
  value : Value
  timestamp : Value
  description : Value
  finite : isWritten value ∧ isWritten timestamp
  ends : description.beginsAgain = false

namespace Record
variable (r : Record)

def sample : Sample where
  name := .text r.name
  value := r.value
  unit := .text r.unit
  timestamp := r.timestamp
  labels := .table (r.labels.map fun label => (.text label.1, .text label.2))
  description := r.description

/-- The JSON value of a sample, with the code points that its texts have. Its numbers have the characters that they have
in any text. -/
def json (pointsOf : String → List Nat) : Json :=
  .object [
    (points "name", .text (pointsOf r.name)),
    (points "value", .number r.value.quoted.toList),
    (points "unit", .text (pointsOf r.unit)),
    (points "timestamp", .number r.timestamp.quoted.toList),
    (points "labels", .object (r.labels.map fun label => (pointsOf label.1, .text (pointsOf label.2))))]

/-- No text of a sample has a high surrogate right before a low one. -/
def IsWhole : Prop :=
  JsonTexts.IsWhole r.name ∧ JsonTexts.IsWhole r.unit ∧
    ∀ label ∈ r.labels, JsonTexts.IsWhole label.1 ∧ JsonTexts.IsWhole label.2

theorem json_of_isWhole {r : Record} (whole : r.IsWhole) : r.json readPoints = r.json points := by
  have same {s : String} (whole : JsonTexts.IsWhole s) : readPoints s = points s := joined_of_isChain whole
  obtain ⟨name, unit, labels⟩ := whole
  have rows : (r.labels.map fun label => (readPoints label.1, Json.text (readPoints label.2))) =
      r.labels.map fun label => (points label.1, Json.text (points label.2)) := by
    refine List.map_congr_left fun label member => ?_
    rw [same (labels label member).1, same (labels label member).2]
  unfold json
  rw [same name, same unit, rows]

end Record

/-- A finite double has no name in JSON: it is written as in any text. -/
theorem encodeFloat_of_finite {x : Float} (finite : (Binary64.value? x).isSome) :
    encodeFloat x = (Shortest.text x).toList := by
  unfold encodeFloat
  unfold Binary64.value? at finite
  cases parts : Binary64.parts x with
  | finite => rfl
  | nan | infinite =>
    rw [parts] at finite
    cases finite

theorem jsonOf_number {v : Value} (finite : isWritten v) :
    hasForm v ∧ isFinite v ∧ jsonOf v = .number v.quoted.toList := by
  cases v with
  | int n => exact ⟨finite, rfl, rfl⟩
  | float x => exact ⟨rfl, finite, congrArg Json.number (encodeFloat_of_finite finite)⟩
  | _ => cases finite

theorem jsonRows_texts (labels : List (String × String)) :
    let rows := labels.map fun label => (Value.text label.1, Value.text label.2)
    rowsHaveForm rows ∧ rowsFinite rows ∧
      jsonRows rows = labels.map fun label => (readPoints label.1, .text (readPoints label.2)) := by
  induction labels with
  | nil => exact ⟨rfl, rfl, rfl⟩
  | cons label labels ih =>
    obtain ⟨form, finite, read⟩ := ih
    refine ⟨?_, ?_, ?_⟩
    · exact Bool.and_eq_true_iff.mpr ⟨rfl, form⟩
    · exact Bool.and_eq_true_iff.mpr ⟨rfl, finite⟩
    · rw [List.map_cons, jsonRows, read]
      rfl

/-- A record has a line: a written form, which is printable and is read as the record, and a newline. -/
theorem exists_line (r : Record) : ∃ cs, lineOf r.sample = .ok (String.ofList (cs ++ ['\n'])) ∧ (∀ c ∈ cs, isPlain c) ∧
    JsonReader.read cs = some (r.json readPoints) := by
  obtain ⟨form, value, number⟩ := jsonOf_number r.finite.1
  obtain ⟨form', timestamp, number'⟩ := jsonOf_number r.finite.2
  obtain ⟨formed, labels, rows⟩ := jsonRows_texts r.labels
  have finite : isFinite (recordOf r.sample) := by
    simp [recordOf, Record.sample, isFinite, rowsFinite, value, timestamp, labels]
  have written : hasForm (recordOf r.sample) := by
    simp [recordOf, Record.sample, hasForm, rowsHaveForm, keyHasForm, form, form', formed]
  have keys : ∀ key ∈ ["name", "value", "unit", "timestamp", "labels"], readPoints key = points key := by
    decide +kernel
  obtain ⟨cs, known⟩ := (exists_encode_iff _).mpr written
  refine ⟨cs, lineOf_of_encode known r.ends, plain_encode _ known, ?_⟩
  rw [read_encode known finite]
  simp [recordOf, Record.sample, jsonOf, jsonRows, keyOf, keyText, Except.toOption, number, number', rows, Record.json, keys]

/-- The lines of records are those of their samples, one for each. -/
theorem exists_lines (batch : List Record) : ∃ texts : List (List Char), check (batch.map Record.sample) = .ok () ∧
    (linesOf (batch.map Record.sample)).toList = texts.flatMap (· ++ ['\n']) ∧
    (∀ line ∈ texts, ∀ c ∈ line, isPlain c) ∧
    texts.map JsonReader.read = batch.map fun r => some (r.json readPoints) := by
  induction batch with
  | nil => exact ⟨[], rfl, rfl, nofun, rfl⟩
  | cons r batch ih =>
    obtain ⟨texts, complete, whole, plain, read⟩ := ih
    obtain ⟨cs, has, own, first⟩ := exists_line r
    refine ⟨cs :: texts, ?_, ?_, List.forall_mem_cons.mpr ⟨own, plain⟩, ?_⟩
    · rw [List.map_cons, check_cons_ok has, complete]
    · rw [List.map_cons, linesOf_cons_ok has, String.toList_append, String.toList_ofList, whole, List.flatMap_cons]
    · rw [List.map_cons, List.map_cons, first, read]

/-- The text that the export of a batch appends, for samples of any texts and of finite numbers that are written. The
export succeeds if the clock shows a date and the file can be opened. The text is printable ASCII and newlines, and each
newline ends the line of one sample, in the order of the batch. Such a line is read as an object of the sample's name,
value, unit, timestamp and labels and nothing else, with the same numbers and the labels in their order. Its texts are
those of the sample, as long as none has a high surrogate right before a low one; a Unicode string never has. -/
theorem each_sample_is_one_line (batch : List Record) :
    let samples := batch.map Record.sample
    let text := (linesOf samples).toList
    (∀ directory disk acts wall d, dateOf wall = .ok d → samples ≠ [] →
      Openable directory disk.tree (acts ++ [.append wall samples]) →
        ∃ place, disk.tree.placeOf (namesOfDay directory d) = .ok place ∧ Appends directory disk acts wall samples place) ∧
    check samples = .ok () ∧ (∀ c ∈ text, c = '\n' ∨ isPlain c) ∧
    text = (Blank.lines text).flatMap (· ++ ['\n']) ∧
    (Blank.lines text).map JsonReader.read = batch.map (fun r => some (r.json readPoints)) ∧
    (∀ r ∈ batch, r.IsWhole → r.json readPoints = r.json points) ∧
    ∀ cs, points (ofChars cs) = cs.map Char.toNat ∧ IsWhole (ofChars cs) := by
  intro samples text
  obtain ⟨texts, complete, whole, plain, read⟩ := exists_lines batch
  replace whole : text = texts.flatMap (· ++ ['\n']) := whole
  have lines : Blank.lines text = texts := by
    rw [whole, lines_flatMap plain]
  refine ⟨?_, complete, fun c member => ?_, ?_, ?_, fun r _ whole => Record.json_of_isWhole whole, points_ofChars⟩
  · intro directory disk acts wall d dated nonempty openable
    exact exists_appends dated nonempty openable
  · rw [whole] at member
    obtain ⟨line, known, inside⟩ := List.mem_flatMap.mp member
    rcases List.mem_append.mp inside with own | newline
    · exact .inr (plain line known c own)
    · exact .inl (List.mem_singleton.mp newline)
  · rw [lines]
    exact whole
  · rw [lines, read]

/-- A record with quotes, a backslash, controls, a line separator and characters beyond ASCII in its texts. -/
def escaped : Record where
  name := "a \"load\" \\ of\none"
  unit := "µs\t\x01"
  labels := [("cpu\u2028", "😀"), ("", "total")]
  value := .float 0.1
  timestamp := .int 1700000000
  description := .text "not written"
  finite := ⟨by decide +kernel, by decide +kernel⟩
  ends := rfl

def escapedLine : String :=
  "\x7b\"name\": \"a \\\"load\\\" \\\\ of\\none\", \"value\": 0.1, \"unit\": \"\\u00b5s\\t\\u0001\", " ++
  "\"timestamp\": 1700000000, \"labels\": \x7b\"cpu\\u2028\": \"\\ud83d\\ude00\", \"\": \"total\"\x7d\x7d\n"

theorem isWhole_escaped : escaped.IsWhole := by
  unfold Record.IsWhole JsonTexts.IsWhole
  decide +kernel

theorem openable_on_shelf (batch : List Sample) :
    Openable "out" shelf.tree ([] ++ [.append (.int 1700000000) batch]) := by
  intro d exported
  have samples : samplesOn d ([] ++ [.append (.int 1700000000) batch]) = (if ⟨2023, 11, 14⟩ = d then batch else []) ++ [] := rfl
  by_cases today : (⟨2023, 11, 14⟩ : Date) = d
  · subst today
    exact openEnd_of_free place_of_first nofun
  · rw [samples, if_neg today] at exported
    exact absurd rfl exported

theorem each_sample_is_one_line_escaped :
    (perform (.append (.int 1700000000) [escaped.sample]) (after "out" shelf [])).2.disk.tree.node?
        ["out", "cpu-load-2023-11-14.jsonl"] = some (.file ("old\n".toUTF8 ++ escapedLine.toUTF8)) ∧
      (Blank.lines escapedLine.toList).map JsonReader.read = [some (escaped.json points)] := by
  have text : linesOf [escaped.sample] = escapedLine := by decide +kernel
  obtain ⟨appends, complete, _, _, read, same, _⟩ := each_sample_is_one_line [escaped]
  simp only [List.map_cons, List.map_nil, text, same escaped (List.mem_singleton_self escaped) isWhole_escaped]
    at appends complete read
  refine ⟨?_, read⟩
  obtain ⟨place, leads, _, d, passed, _, _, whole, here, _⟩ :=
    appends "out" shelf [] (.int 1700000000) ⟨2023, 11, 14⟩ rfl (List.cons_ne_nil _ _) (openable_on_shelf _)
  obtain rfl := Except.ok.inj (place_of_first.symm.trans leads)
  rw [here, whole rfl complete, text]
  rfl

/-- The sample with a number that has more digits than are written. -/
def tooLong : Sample := { escaped.sample with value := .int (10 ^ 4300 : Nat) }

/-- If a number has more digits than are written, or if the clock shows a time beyond the last date, then the export of
the sample fails and nothing is appended anywhere. -/
theorem a_finite_number_may_be_left_out :
    ((perform (.append (.int 1700000000) [tooLong]) (after "out" shelf [])).1 ≠ .ok () ∧
      ∀ place, (perform (.append (.int 1700000000) [tooLong]) (after "out" shelf [])).2.disk.tree.node? place =
        shelf.tree.node? place) ∧
    ((perform (.append (.int 253402300800) [escaped.sample]) (after "out" shelf [])).1 ≠ .ok () ∧
      ∀ place, (perform (.append (.int 253402300800) [escaped.sample]) (after "out" shelf [])).2.disk.tree.node? place =
        shelf.tree.node? place) := by
  have formless : hasForm (recordOf tooLong) = false := by decide +kernel
  have lacks : check [tooLong] ≠ .ok () := by
    intro complete
    obtain ⟨form, _⟩ := (exists_lineOf_iff _).mp (check_eq_ok_iff.mp complete tooLong (List.mem_singleton_self _))
    rw [formless] at form
    cases form
  have blank : linesOf [tooLong] = "" := by decide +kernel
  constructor
  · obtain ⟨place, leads, answer, d, passed, _, whole, _, here, elsewhere⟩ :=
      exists_appends (d := ⟨2023, 11, 14⟩) rfl (List.cons_ne_nil _ _) (openable_on_shelf [tooLong])
    obtain rfl := Except.ok.inj (place_of_first.symm.trans leads)
    have nothing : passed = "" := by
      rw [blank] at whole
      exact (String.append_eq_empty_iff.mp whole).1
    refine ⟨answer ▸ lacks, fun p => ?_⟩
    by_cases own : p = ["out", "cpu-load-2023-11-14.jsonl"]
    · rw [own, here, nothing]
      rfl
    · rcases elsewhere p own with same | ⟨e, spoilt, _⟩
      · exact same
      · exact absurd rfl spoilt
  · have undated : dateOf (.int 253402300800) = .error .notNumber := rfl
    have done : perform (.append (.int 253402300800) [escaped.sample]) (after "out" shelf []) =
        (.error .notNumber, ⟨fresh "out", { shelf with wall := .int 253402300800 }⟩) :=
      perform_of_outcome (outcome_append_undated (run_wallSeconds _) (List.cons_ne_nil _ _) undated)
    rw [done]
    exact ⟨nofun, fun _ => rfl⟩

end CpuLoad.JsonRecords
