import CpuLoad.Proofs.FirstBlock

/-!
What a process file system may hold without a fault. A file that is not there, or that the system refuses to open, counts
as one without ticks and without descriptions (`run_readOrNote_of_holds`). The bytes of any other file are decoded first, and
those of the statistics file are read as rows then. Both steps may fail, and nothing catches it: a statistics file fails
exactly if its bytes are spoiled (`rowsIn_eq_error_iff`), and an identity exactly if one of its two files is no text
(`run_identity`).
-/
namespace CpuLoad.UnreadableFiles
open CpuLoad.Blank CpuLoad.FirstBlock CpuLoad.Identity CpuLoad.Outcome CpuLoad.StatRows

/-! ### Bytes -/

/-- The text of a file's bytes, or none of a file that cannot be opened. -/
def textIn : Option ByteArray → Except Fault (Option String)
  | none => .ok none
  | some bytes => (Files.decode bytes).map some

/-- The rows of a file's bytes, none of a file that cannot be opened. -/
def rowsIn (content : Option ByteArray) : Except Fault (List (String × Snapshot)) :=
  (textIn content).bind fun found => (found.map StatFile.rows).getD (.ok [])

/-- Why bytes cannot be read as rows: they are no text, or one of its lines of counters has a word, after its first one,
that denotes no integer. -/
inductive Spoils (bytes : ByteArray) : Fault → Prop
  | undecodable : ¬ bytes.IsValidUTF8 → Spoils bytes .encoding
  | misnumbered {text : String} {line : List Char} {word : String} : Files.decode bytes = .ok text →
      line ∈ counterLines text → word ∈ countsOf line → Numeral.int? word = none → Spoils bytes .notNumber

variable {bytes : ByteArray} {content descriptions number : Option ByteArray} {e : Fault}

theorem decode_eq_error_iff : Files.decode bytes = .error e ↔ e = .encoding ∧ ¬ bytes.IsValidUTF8 := by
  unfold Files.decode String.fromUTF8?
  by_cases valid : bytes.IsValidUTF8
  · simp [valid]
  · simp [valid, eq_comm]

theorem textIn_eq_error_iff : textIn content = .error e ↔ e = .encoding ∧ ∃ bytes ∈ content, ¬ bytes.IsValidUTF8 := by
  cases content with
  | none => simp [textIn]
  | some bytes =>
    simp only [Option.mem_some_iff, exists_eq_left', ← decode_eq_error_iff, textIn]
    cases Files.decode bytes <;> simp [Except.map]

theorem rowsIn_eq_error_iff : rowsIn content = .error e ↔ ∃ bytes ∈ content, Spoils bytes e := by
  cases content with
  | none => exact iff_of_false (by rintro ⟨⟩) (by rintro ⟨_, ⟨⟩, _⟩)
  | some bytes =>
    simp only [Option.mem_some_iff, exists_eq_left', rowsIn, textIn]
    cases decoded : Files.decode bytes with
    | error f =>
      obtain ⟨rfl, invalid⟩ := decode_eq_error_iff.mp decoded
      constructor
      · rintro ⟨⟩
        exact .undecodable invalid
      · intro spoils
        cases spoils with
        | undecodable => rfl
        | misnumbered known =>
          rw [decoded] at known
          cases known
    | ok text =>
      show StatFile.rows text = .error e ↔ Spoils bytes e
      rw [rows_eq_error_iff]
      constructor
      · rintro ⟨rfl, line, counts, word, count, refused⟩
        exact .misnumbered decoded counts count refused
      · intro spoils
        cases spoils with
        | undecodable invalid =>
          rw [decode_eq_error_iff.mpr ⟨rfl, invalid⟩] at decoded
          cases decoded
        | misnumbered known counts count refused =>
          rw [decoded] at known
          cases known
          exact ⟨rfl, _, counts, _, count, refused⟩

theorem fails_iff {ω α β : Type} {r : Except Fault α} {f : α → β} {left : ω} :
    (r.map f, left) = (.error e, left) ↔ r = .error e := by
  cases r <;> simp [Except.map]

/-! ### Files -/

section
variable {ω : Type} [Files (StateM ω)]

/-- What stands at a path: the bytes of a file, or nothing that the system lets be read. -/
inductive Holds (path : String) (world : ω) : Option ByteArray → ω → Prop
  | bytes {bytes : ByteArray} {left : ω}
      (read : (Files.read path : StateM ω (Except FileFault ByteArray)).run world = (.ok bytes, left)) :
      Holds path world (some bytes) left
  | refused {fault : FileFault} {left : ω}
      (read : (Files.read path : StateM ω (Except FileFault ByteArray)).run world = (.error fault, left))
      (refusal : fault.cause.isRefusal) : Holds path world none left

variable {path root : String} {found : Option String} {world middle left : ω}

/-- A file that is a text, or that cannot be opened. -/
theorem opens_of_textIn (holds : Holds path world content left) (known : textIn content = .ok found) :
    Opens path world found left := by
  cases holds with
  | @bytes bytes left read =>
    obtain ⟨text, decoded, rfl⟩ := eq_ok_of_map known
    exact .opened read decoded
  | refused read refusal =>
    cases known
    exact .refused read refusal

theorem run_readIfOpen_of_undecodable (holds : Holds path world content left) (unknown : textIn content = .error e) :
    (ProcSource.readIfOpen path : ExceptT Fault (StateM ω) (Except FileFault String)).run.run world = (.error e, left) := by
  obtain ⟨rfl, bytes, rfl, invalid⟩ := textIn_eq_error_iff.mp unknown
  cases holds with
  | bytes read =>
    have requested : (Files.request (Files.read path) : ExceptT Fault (StateM ω) ByteArray).run.run world =
        (.ok bytes, left) := by
      rw [run_request, read]
      rfl
    have refused : (Files.readText path : ExceptT Fault (StateM ω) String).run.run world = (.error .encoding, left) := by
      refine (run_bind_ok requested).trans ?_
      rw [decode_eq_error_iff.mpr ⟨rfl, invalid⟩, run_ofExcept]
    have attempted := run_attempt (Files.readText path : ExceptT Fault (StateM ω) String) world
    rw [refused] at attempted
    exact run_bind_ok attempted

theorem run_readOrNote_of_holds (holds : Holds path world content left) :
    (ProcSource.readOrNote path : ExceptT Fault (StateM ω) (Option String)).run.run world = (textIn content, left) := by
  cases known : textIn content with
  | error e => exact run_bind_error (run_readIfOpen_of_undecodable holds known)
  | ok found => exact run_readOrNote (opens_of_textIn holds known)

/-! ### What the source makes of them -/

section
variable (deviceRoot : String) (processors : Option Int) (platform : Identity)

theorem run_statRows_of_holds (holds : Holds (root ++ "/stat") world content left) :
    (ProcSource.statRows root : ExceptT Fault (StateM ω) _).run.run world = (rowsIn content, left) := by
  have read := run_readOrNote_of_holds holds
  unfold rowsIn
  cases known : textIn content with
  | error e =>
    rw [known] at read
    exact run_bind_error read
  | ok found => exact run_statRows (opens_of_textIn holds known)

/-- The ticks of all processors together, and those of each processor. -/
theorem run_pulls (holds : Holds (root ++ "/stat") world content left) :
    let source : Source (StateM ω) := ProcSource.source root deviceRoot processors platform
    source.aggregate.run.run world = ((rowsIn content).map fun rows => (StatFile.aggregate rows).toReading, left) ∧
      source.perProcessor.run.run world =
        ((rowsIn content).map fun rows =>
          .list ((List.range source.logical.toNat).map fun i => (StatFile.processor rows i).toReading), left) := by
  have read := run_statRows_of_holds holds
  cases known : rowsIn content with
  | error e =>
    rw [known] at read
    exact ⟨run_bind_error read, run_bind_error read⟩
  | ok rows =>
    rw [known] at read
    exact ⟨run_bind_ok read, run_bind_ok read⟩

theorem run_identity (described : Holds (root ++ "/cpuinfo") world descriptions middle)
    (numbered : Holds (ProcSource.serialFile deviceRoot) middle number left) :
    (ProcSource.source root deviceRoot processors platform : Source (StateM ω)).identity.run.run world =
      match textIn descriptions with
      | .error e => (.error e, middle)
      | .ok found =>
        ((textIn number).map fun serial => platform.withFields ((found.map fieldsOf).getD []) (serial.getD ""), left) := by
  have read := run_readOrNote_of_holds described
  cases known : textIn descriptions with
  | error e =>
    rw [known] at read
    exact run_bind_error read
  | ok found =>
    rw [known] at read
    cases serial : textIn number with
    | error e => exact (run_bind_ok read).trans (run_bind_error (run_readIfOpen_of_undecodable numbered serial))
    | ok serial' => exact run_describe (opens_of_textIn described known) (opens_of_textIn numbered serial) platform

end

/-- Bytes that are not spoiled give the rows of their text. -/
theorem rowsIn_of_unspoiled (sound : ∀ bytes ∈ content, ∀ e, ¬ Spoils bytes e) :
    ∃ found rows, textIn content = .ok found ∧ (found.map StatFile.rows).getD (.ok []) = .ok rows := by
  cases read : rowsIn content with
  | error e =>
    obtain ⟨bytes, member, spoils⟩ := rowsIn_eq_error_iff.mp read
    exact absurd spoils (sound bytes member e)
  | ok rows =>
    obtain ⟨found, known, rows_eq⟩ := eq_ok_of_bind read
    exact ⟨found, rows, known, rows_eq⟩

/-- A text without lines of counters has no ticks, and neither has a file that cannot be opened. -/
theorem ticksUnder_of_no_counters (name : String) (none : ∀ text ∈ found, counterLines text = []) :
    ticksUnder name found = List.replicate 7 0 := by
  cases found with
  | none => rfl
  | some text =>
    unfold ticksUnder
    rw [Option.bind_some, none text rfl]
    rfl

theorem valid_of_textIn (known : textIn content = .ok found) : ∀ bytes ∈ content, bytes.IsValidUTF8 := by
  intro bytes member
  by_contra invalid
  rw [textIn_eq_error_iff.mpr ⟨rfl, bytes, member, invalid⟩] at known
  cases known

/-- An identity is answered if both of its files are texts or cannot be opened, and else the bytes that are none are the
fault. -/
theorem identity_cases (deviceRoot : String) (processors : Option Int) (platform : Identity)
    (described : Holds (root ++ "/cpuinfo") world descriptions middle)
    (numbered : Holds (ProcSource.serialFile deviceRoot) middle number left) :
    let source : Source (StateM ω) := ProcSource.source root deviceRoot processors platform
    (∃ found serial p, textIn descriptions = .ok found ∧ textIn number = .ok serial ∧
      source.identity.run.run world = (.ok p, left) ∧
        Describes (blockAfter false (linesIn found)) (serialIn serial) platform p) ∨
    ((∃ bytes ∈ descriptions, ¬ bytes.IsValidUTF8) ∨ ∃ bytes ∈ number, ¬ bytes.IsValidUTF8) ∧
      ∃ reached, source.identity.run.run world = (.error .encoding, reached) := by
  intro source
  have run := run_identity deviceRoot processors platform described numbered
  cases known : textIn descriptions with
  | error e =>
    obtain ⟨rfl, invalid⟩ := textIn_eq_error_iff.mp known
    rw [known] at run
    exact .inr ⟨.inl invalid, middle, run⟩
  | ok found =>
    rw [known] at run
    cases serial : textIn number with
    | error e =>
      obtain ⟨rfl, invalid⟩ := textIn_eq_error_iff.mp serial
      rw [serial] at run
      exact .inr ⟨.inr invalid, left, run⟩
    | ok serial' =>
      obtain ⟨p, answered, describes⟩ := exists_described (opens_of_textIn described known)
        (opens_of_textIn numbered serial) (isFirstBlock_lines (linesIn found)) platform
      exact .inl ⟨found, serial', p, rfl, rfl, answered, describes⟩

end

/-- What stands at the path of the statistics file is read as rows of ticks, zeros if it cannot be opened or has no line of
counters, unless its bytes are spoiled; then both pulls fail, and they fail with nothing else. An identity is read from
what stands at the other two paths, and is the one known otherwise if neither can be opened, unless the bytes of one of
them are not UTF-8; then it fails. -/
theorem unreadable_counts_as_absent_unless_spoiled (ω : Type) [Files (StateM ω)] (root deviceRoot : String)
    (processors : Option Int) (platform : Identity) :
    let source : Source (StateM ω) := ProcSource.source root deviceRoot processors platform
    (∀ content world left, Holds (root ++ "/stat") world content left →
      (∀ e, source.aggregate.run.run world = (.error e, left) ↔ ∃ bytes ∈ content, Spoils bytes e) ∧
      (∀ e, source.perProcessor.run.run world = (.error e, left) ↔ ∃ bytes ∈ content, Spoils bytes e) ∧
      ((∀ bytes ∈ content, ∀ e, ¬ Spoils bytes e) → ∃ found, textIn content = .ok found ∧
        source.aggregate.run.run world = (.ok (.list ((ticksUnder "cpu" found).map .int)), left) ∧
        source.perProcessor.run.run world =
          (.ok (.list ((List.range source.logical.toNat).map fun i =>
            .list ((ticksUnder ("cpu" ++ toString i) found).map .int))), left))) ∧
    (∀ name found, (∀ text ∈ found, counterLines text = []) → ticksUnder name found = List.replicate 7 0) ∧
    (∀ descriptions number world middle left, Holds (root ++ "/cpuinfo") world descriptions middle →
      Holds (ProcSource.serialFile deviceRoot) middle number left →
      ((∀ bytes ∈ descriptions, bytes.IsValidUTF8) → (∀ bytes ∈ number, bytes.IsValidUTF8) →
        ∃ found serial p, textIn descriptions = .ok found ∧ textIn number = .ok serial ∧
          source.identity.run.run world = (.ok p, left) ∧
            Describes (blockAfter false (linesIn found)) (serialIn serial) platform p) ∧
      (((∃ bytes ∈ descriptions, ¬ bytes.IsValidUTF8) ∨ ∃ bytes ∈ number, ¬ bytes.IsValidUTF8) →
        ∃ reached, source.identity.run.run world = (.error .encoding, reached)) ∧
      (descriptions = none → number = none → source.identity.run.run world = (.ok platform, left))) := by
  intro source
  refine ⟨fun content world left holds => ?_, fun name found none => ticksUnder_of_no_counters name none,
    fun descriptions number world middle left described numbered => ⟨fun valid valid' => ?_, fun invalid => ?_, ?_⟩⟩
  · obtain ⟨together, each⟩ := run_pulls deviceRoot processors platform holds
    refine ⟨fun e => ?_, fun e => ?_, fun sound => ?_⟩
    · rw [together, fails_iff, rowsIn_eq_error_iff]
    · rw [each, fails_iff, rowsIn_eq_error_iff]
    · obtain ⟨found, rows, known, read⟩ := rowsIn_of_unspoiled sound
      have answered : rowsIn content = .ok rows := by
        rw [rowsIn, known]
        exact read
      refine ⟨found, known, ?_, ?_⟩
      · rw [together, answered, ← toReading_row read]
        rfl
      · refine each.trans ?_
        simp only [answered, ← toReading_row read]
        rfl
  · rcases identity_cases deviceRoot processors platform described numbered with answered | ⟨invalid, _⟩
    · exact answered
    · rcases invalid with ⟨bytes, member, invalid⟩ | ⟨bytes, member, invalid⟩
      · exact absurd (valid bytes member) invalid
      · exact absurd (valid' bytes member) invalid
  · rcases identity_cases deviceRoot processors platform described numbered with answered | ⟨_, failed⟩
    · obtain ⟨found, serial, p, known, known', _⟩ := answered
      rcases invalid with ⟨bytes, member, invalid⟩ | ⟨bytes, member, invalid⟩
      · exact absurd (valid_of_textIn known bytes member) invalid
      · exact absurd (valid_of_textIn known' bytes member) invalid
    · exact failed
  · rintro rfl rfl
    exact run_identity deviceRoot processors platform described numbered

/-- Statistics in which the only tick is no number, and no other file. -/
def garbled : LoadAverages.Shelf := ⟨[("/proc/stat", "cpu x\n")]⟩

theorem unreadable_counts_as_absent_unless_spoiled_garbled :
    let source : Source (StateM LoadAverages.Shelf) := ProcSource.source "/proc" "/sys" (some 1) {}
    source.aggregate.run.run garbled = (.error .notNumber, garbled) ∧
      source.identity.run.run garbled = (.ok {}, garbled) := by
  have ⟨pulls, _, identities⟩ :=
    unreadable_counts_as_absent_unless_spoiled LoadAverages.Shelf "/proc" "/sys" (some 1) {}
  have statistics : Holds "/proc/stat" garbled (some "cpu x\n".toUTF8) garbled := .bytes rfl
  have descriptions : Holds "/proc/cpuinfo" garbled none garbled := .refused rfl rfl
  have serial : Holds "/sys/class/dmi/id/product_serial" garbled none garbled := .refused rfl rfl
  have decoded : Files.decode "cpu x\n".toUTF8 = .ok "cpu x\n" := rfl
  have counters : "cpu x".toList ∈ counterLines "cpu x\n" := by decide +kernel
  have word : "x" ∈ countsOf "cpu x".toList := by decide +kernel
  have spoils : Spoils "cpu x\n".toUTF8 .notNumber := .misnumbered decoded counters word (by decide +kernel)
  refine ⟨?_, ?_⟩
  · exact ((pulls _ _ _ statistics).1 .notNumber).mpr ⟨_, rfl, spoils⟩
  · exact (identities none none _ _ _ descriptions serial).2.2 rfl rfl

/-- Such statistics cost both pulls, and no sampler can be set up over them. -/
theorem garbled_statistics_fail :
    let source : Source (StateM LoadAverages.Shelf) := LoadAverages.oneProcessor.source .proc
    source.aggregate.run.run garbled = (.error .notNumber, garbled) ∧
      source.perProcessor.run.run garbled = (.error .notNumber, garbled) ∧
        (LoadAverages.oneProcessor.sampler { source := .text "procfs" }).run.run garbled = (.error .notNumber, garbled) :=
  ⟨rfl, rfl, rfl⟩

end CpuLoad.UnreadableFiles
