import CpuLoad.Overrides
import CpuLoad.Settings

/-!
Where each setting comes from. A setting that an environment variable names has the text of that variable, read in the
variable's form, if the variable is set. Any other setting has the value under its key in the document, if its section is
a table that has the key, and else its default. So two documents that say the same under every known key give the same
settings (`configured_of_agree`), and documents that differ in unknown keys, in the order of keys or in sections that say
nothing are of that kind (`agree_of_varies`).
-/
namespace CpuLoad.Precedence

abbrev Rows := List (Value × Value)

/-! ### Rows by their keys -/

theorem sameKey_text_iff {v : Value} {key : String} : v.sameKey (.text key) = true ↔ v = .text key := by
  cases v <;> simp [Value.sameKey, Value.rational?]

theorem sameKey_texts (key other : String) : (Value.text key).sameKey (.text other) = (key == other) := by
  simp [Value.sameKey]

theorem lookup_cons (key : String) (row : Value × Value) (rows : Rows) :
    Value.lookup key (row :: rows) = if row.1.sameKey (.text key) then some row.2 else Value.lookup key rows := rfl

theorem lookup_append (key : String) (xs ys : Rows) :
    Value.lookup key (xs ++ ys) = (Value.lookup key xs).or (Value.lookup key ys) := by
  induction xs with
  | nil => rfl
  | cons row xs ih => by_cases same : row.1.sameKey (.text key) <;> simp [lookup_cons, same, ih]

theorem lookup_enter (key other : String) (value : Value) (rows : Rows) :
    Value.lookup other (Value.enter (.text key) value rows) = if other = key then some value else Value.lookup other rows := by
  induction rows with
  | nil =>
    rw [Value.enter, lookup_cons, sameKey_texts, BEq.comm]
    by_cases own : other = key <;> simp [own]
  | cons row rows ih =>
    by_cases here : row.1.sameKey (.text key)
    · have same : row.1.sameKey (.text other) = (key == other) := by
        rw [sameKey_text_iff.mp here, sameKey_texts]
      by_cases own : other = key
      · simp [Value.enter, lookup_cons, here, own]
      · simp [Value.enter, lookup_cons, here, same, own, Ne.symm own]
    · by_cases own : other = key
      · subst own
        simpa [Value.enter, lookup_cons, here] using ih
      · simp only [Value.enter, here, Bool.false_eq_true, ↓reduceIte, lookup_cons, ih, own]

/-- No text is the key of two rows. -/
def Distinct (rows : Rows) : Prop := ∀ key : String, rows.countP (fun row => row.1.sameKey (.text key)) ≤ 1

theorem lookup_eq_head (key : String) (rows : Rows) :
    Value.lookup key rows = (rows.filter fun row => row.1.sameKey (.text key)).head?.map Prod.snd := by
  induction rows with
  | nil => rfl
  | cons row rows ih =>
    by_cases here : row.1.sameKey (.text key) <;> simp [lookup_cons, here, ih]

theorem lookup_perm {rows other : Rows} (distinct : Distinct rows) (order : rows.Perm other) (key : String) :
    Value.lookup key rows = Value.lookup key other := by
  have found := order.filter fun row => row.1.sameKey (.text key)
  have few : (rows.filter fun row => row.1.sameKey (.text key)).length ≤ 1 := by
    rw [← List.countP_eq_length_filter]
    exact distinct key
  rw [lookup_eq_head, lookup_eq_head]
  rcases Nat.le_one_iff_eq_zero_or_eq_one.mp few with none | one
  · rw [List.length_eq_zero_iff.mp none] at found ⊢
    rw [List.nil_perm.mp found]
  · obtain ⟨row, only⟩ := List.length_eq_one_iff.mp one
    rw [only] at found ⊢
    rw [List.singleton_perm.mp found]

/-- The rows of a table. Anything else has none. -/
def contents : Option Value → Rows
  | some (.table inner) => inner
  | _ => []

theorem contents_none : contents none = [] := rfl

theorem contents_table (inner : Rows) : contents (some (.table inner)) = inner := rfl

/-! ### Settings one by one -/

/-- A setting: the key that it has in a document and in which section, and where it is kept. -/
structure Field where
  «section» : Option String
  key : String
  get : Settings → Value

namespace Field

/-- All settings. -/
def all : List Field := [
  ⟨none, "mode", fun s => s.mode⟩,
  ⟨some "sampler", "source", fun s => s.sampler.source⟩,
  ⟨some "sampler", "refresh_threshold_ms", fun s => s.sampler.refreshThreshold⟩,
  ⟨some "sampler", "native_debounce_ms", fun s => s.sampler.directHold⟩,
  ⟨some "sampler", "use_native", fun s => s.sampler.useDirect⟩,
  ⟨some "collector", "interval_seconds", fun s => s.rounds.interval⟩,
  ⟨some "collector", "per_core", fun s => s.rounds.perProcessor⟩,
  ⟨some "local_exporter", "enabled", fun s => s.journal.enabled⟩,
  ⟨some "local_exporter", "output_dir", fun s => s.journal.directory⟩,
  ⟨some "local_exporter", "format", fun s => s.journal.format⟩,
  ⟨some "otel", "endpoint", fun s => s.gauges.endpoint⟩,
  ⟨some "otel", "service_name", fun s => s.gauges.service⟩,
  ⟨some "otel", "headers", fun s => s.gauges.headers⟩,
  ⟨some "otel", "export_interval_ms", fun s => s.gauges.interval⟩]

/-- The rows in which a setting has its key. -/
def rowsOf (rows : Rows) : Option String → Rows
  | none => rows
  | some part => contents (Value.lookup part rows)

/-- The value of a setting in a document, if the document has one. -/
def inDocument (rows : Rows) (f : Field) : Option Value := Value.lookup f.key (rowsOf rows f.section)

/-- Whether a variable names a setting. -/
def isNamedBy (f : Field) (o : Override) : Bool := o.section = f.section && o.key = f.key

/-- What the environment says of a setting, if it names it at all. -/
def inEnvironment? (environment : String → Option String) (f : Field) : Option (Except Fault Value) :=
  (Override.all.find? f.isNamedBy).bind fun o => (environment o.name).map o.read

/-- The value that a setting has from the environment, or else from the document, or else by default. -/
def chosen (environment : String → Option String) (rows : Rows) (f : Field) : Except Fault Value :=
  (f.inEnvironment? environment).getD (.ok ((f.inDocument rows).getD (f.get {})))

/-- A value as it is kept: the thresholds of the sampler become doubles. -/
def settled (f : Field) (v : Value) : Except Fault Value :=
  if f.section = some "sampler" ∧ (f.key = "refresh_threshold_ms" ∨ f.key = "native_debounce_ms") then
    v.toFloat.map .float
  else .ok v

end Field

/-- Every variable names a setting. -/
example : Override.all.all (fun o => Field.all.any (Field.isNamedBy · o)) = true := by decide

theorem settings_ext {s t : Settings} (same : ∀ f ∈ Field.all, f.get s = f.get t) : s = t := by
  obtain ⟨mode, ⟨source, threshold, hold, useDirect⟩, ⟨interval, each⟩, ⟨enabled, directory, format⟩,
    ⟨endpoint, service, headers, exports⟩⟩ := s
  obtain ⟨mode', ⟨source', threshold', hold', useDirect'⟩, ⟨interval', each'⟩, ⟨enabled', directory', format'⟩,
    ⟨endpoint', service', headers', exports'⟩⟩ := t
  simp only [Field.all, List.forall_mem_cons, List.not_mem_nil] at same
  simp_all

/-! ### Overrides -/

/-- The values of the variables that are set, in the order of the overrides. -/
def told (environment : String → Option String) : List Override → Except Fault (List (Override × Value))
  | [] => .ok []
  | o :: rest =>
    match environment o.name with
    | none => told environment rest
    | some text => do
      let value ← o.read text
      return (o, value) :: (← told environment rest)

/-- The value that overrides give a setting, the last one if there are several. -/
def latest (f : Field) : List (Override × Value) → Option Value
  | [] => none
  | (o, value) :: rest => (latest f rest).or (if f.isNamedBy o then some value else none)

variable {environment : String → Option String} {rows : Rows}

/-- Whether the variables can be read does not depend on the document. -/
theorem applyEach_eq {δ : Type} (put : Override → Value → δ → δ) (os : List Override) (document : δ) :
    Override.applyEach put environment os document =
      (told environment os).map fun entries => entries.foldl (fun d entry => put entry.1 entry.2 d) document := by
  induction os generalizing document with
  | nil => rfl
  | cons o rest ih =>
    unfold Override.applyEach told
    cases environment o.name with
    | none => exact ih document
    | some text =>
      dsimp only
      cases o.read text with
      | error e => rfl
      | ok value =>
        refine (ih (put o value document)).trans ?_
        cases told environment rest <;> rfl

/-- An override's setting is no section, and no section of its own is a setting's key at the root. -/
def Apart (o : Override) (f : Field) : Prop :=
  (o.section = none → f.section ≠ some o.key) ∧ (f.section = none → o.section ≠ some f.key)

instance (o : Override) (f : Field) : Decidable (Apart o f) := by
  unfold Apart
  infer_instance

theorem inDocument_put {o : Override} {f : Field} (apart : Apart o f) (value : Value) (rows : Rows) :
    f.inDocument (o.put value rows) = if f.isNamedBy o then some value else f.inDocument rows := by
  obtain ⟨name, part, key, form⟩ := o
  obtain ⟨part', key', get⟩ := f
  cases part with
  | none =>
    cases part' with
    | none => simp [Field.inDocument, Field.rowsOf, Override.put, Field.isNamedBy, lookup_enter, eq_comm]
    | some part' =>
      have other : part' ≠ key := fun same => apart.1 rfl (congrArg some same)
      simp [Field.inDocument, Field.rowsOf, Override.put, Field.isNamedBy, lookup_enter, other]
  | some part =>
    cases part' with
    | none =>
      have other : key' ≠ part := fun same => apart.2 rfl (congrArg some same.symm)
      simp [Field.inDocument, Field.rowsOf, Override.put, Field.isNamedBy, lookup_enter, other]
    | some part' =>
      by_cases same : part' = part
      · subst same
        have entered : Override.put ⟨name, some part', key, form⟩ value rows =
          Value.enter (.text part') (.table (Value.enter (.text key) value (Field.rowsOf rows (some part')))) rows := rfl
        simp [Field.inDocument, Field.isNamedBy, entered, Field.rowsOf, contents_table, lookup_enter, eq_comm]
      · simp [Field.inDocument, Field.rowsOf, Override.put, Field.isNamedBy, lookup_enter, same, Ne.symm same]

theorem inDocument_entered {f : Field} {entries : List (Override × Value)} (apart : ∀ entry ∈ entries, Apart entry.1 f)
    (rows : Rows) : f.inDocument (entries.foldl (fun d entry => entry.1.put entry.2 d) rows) =
      (latest f entries).or (f.inDocument rows) := by
  induction entries generalizing rows with
  | nil => rfl
  | cons entry rest ih =>
    have ⟨here, later⟩ := List.forall_mem_cons.mp apart
    rw [List.foldl_cons, ih later, inDocument_put here, latest, Option.or_assoc]
    by_cases own : f.isNamedBy entry.1 <;> simp [own]

theorem told_cons {o : Override} {os : List Override} {entries : List (Override × Value)}
    (read : told environment (o :: os) = .ok entries) :
    (environment o.name = none ∧ told environment os = .ok entries) ∨
      ∃ text value rest, environment o.name = some text ∧ o.read text = .ok value ∧ told environment os = .ok rest ∧
        entries = (o, value) :: rest := by
  unfold told at read
  cases known : environment o.name with
  | none =>
    rw [known] at read
    exact .inl ⟨rfl, read⟩
  | some text =>
    rw [known] at read
    dsimp only at read
    cases here : o.read text with
    | error e =>
      rw [here] at read
      cases read
    | ok value =>
      rw [here] at read
      cases later : told environment os with
      | error e =>
        rw [later] at read
        cases read
      | ok rest =>
        rw [later] at read
        cases read
        exact .inr ⟨text, value, rest, rfl, here, rfl, rfl⟩

theorem mem_of_told {os : List Override} {entries : List (Override × Value)} (read : told environment os = .ok entries) :
    ∀ entry ∈ entries, entry.1 ∈ os := by
  induction os generalizing entries with
  | nil =>
    cases read
    simp
  | cons o os ih =>
    rcases told_cons read with ⟨_, later⟩ | ⟨text, value, rest, _, _, later, rfl⟩
    · exact fun entry member => List.mem_cons_of_mem _ (ih later entry member)
    · intro entry member
      rcases List.mem_cons.mp member with rfl | member
      · exact List.mem_cons_self ..
      · exact List.mem_cons_of_mem _ (ih later entry member)

/-- What the environment says of a setting is what the overrides give it, if at most one of them names it. -/
theorem latest_of_told {f : Field} {os : List Override} {entries : List (Override × Value)}
    (read : told environment os = .ok entries) (once : os.countP f.isNamedBy ≤ 1) :
    ((os.find? f.isNamedBy).bind fun o => (environment o.name).map o.read) = (latest f entries).map .ok := by
  induction os generalizing entries with
  | nil =>
    cases read
    rfl
  | cons o os ih =>
    by_cases named : f.isNamedBy o
    · rw [List.countP_cons, if_pos named] at once
      have last : os.countP f.isNamedBy = 0 := by omega
      have later {rest : List (Override × Value)} (read : told environment os = .ok rest) : latest f rest = none := by
        have nothing := ih read (by omega)
        rw [List.find?_eq_none.mpr (List.countP_eq_zero.mp last)] at nothing
        exact Option.map_eq_none_iff.mp nothing.symm
      rw [List.find?_cons_of_pos named, Option.bind_some]
      rcases told_cons read with ⟨unset, rest⟩ | ⟨text, value, rest, set, here, others, rfl⟩
      · simp [unset, later rest]
      · simp [set, here, latest, later others, named]
    · rw [List.countP_cons, if_neg named] at once
      rw [List.find?_cons_of_neg named]
      rcases told_cons read with ⟨unset, rest⟩ | ⟨text, value, rest, set, here, others, rfl⟩
      · exact ih rest once
      · simpa [latest, named] using ih others once

/-! ### All settings of a document -/

theorem get_ofRows {f : Field} (known : f ∈ Field.all) (rows : Rows) :
    f.get (Settings.ofRows rows) = (f.inDocument rows).getD (f.get {}) := by
  have part (name key : String) : Part.ofValue (Value.lookup name rows) key =
      Value.lookup key (Field.rowsOf rows (some name)) := by
    rw [Field.rowsOf]
    rcases Value.lookup name rows with _ | v
    · rfl
    · cases v <;> rfl
  revert f
  simp only [Field.all, List.forall_mem_cons, List.not_mem_nil]
  simp [Settings.ofRows, Settings.ofParts, SamplerSettings.ofPart, RoundSettings.ofPart, JournalSettings.ofPart,
    GaugeSettings.ofPart, Part.get, part, Field.inDocument, SamplerSettings.sourceKey, SamplerSettings.thresholdKey,
    SamplerSettings.holdKey, SamplerSettings.useDirectKey, Field.rowsOf]

theorem toFloat_of_threshold {key : String} {v : Value} {x : Float} (passed : SamplerSettings.threshold key v = .ok x) :
    v.toFloat = .ok x := by
  unfold SamplerSettings.threshold at passed
  split at passed
  · split at passed
    · cases passed
    · simp_all
  all_goals cases passed

/-- The settings of a sampler pass if both thresholds do, and have doubles for thresholds then. -/
theorem sampler_checked_eq_ok_iff {s s' : SamplerSettings} :
    s.checked = .ok s' ↔
      ∃ x y, SamplerSettings.threshold SamplerSettings.thresholdKey s.refreshThreshold = .ok x ∧
        SamplerSettings.threshold SamplerSettings.holdKey s.directHold = .ok y ∧
        s' = { s with refreshThreshold := .float x, directHold := .float y } := by
  unfold SamplerSettings.checked SamplerSettings.check
  constructor
  · intro passed
    cases first : SamplerSettings.threshold SamplerSettings.thresholdKey s.refreshThreshold with
    | error e =>
      rw [first] at passed
      cases passed
    | ok x =>
      rw [first] at passed
      dsimp only at passed
      cases second : SamplerSettings.threshold SamplerSettings.holdKey s.directHold with
      | error e =>
        rw [second] at passed
        cases passed
      | ok y =>
        rw [second] at passed
        cases passed
        exact ⟨x, y, rfl, rfl, rfl⟩
  · rintro ⟨x, y, first, second, rfl⟩
    rw [first]
    dsimp only
    rw [second]
    rfl

theorem sampler_of_checked {s s' : Settings} (passed : s.checked = .ok s') :
    ∃ sampler, s.sampler.checked = .ok sampler ∧ s' = { s with sampler } := by
  unfold Settings.checked at passed
  by_cases mode : Settings.isMode s.mode
  · rw [mode] at passed
    change (do return { s with sampler := ← s.sampler.checked }) = _ at passed
    cases checked : s.sampler.checked with
    | error e =>
      rw [checked] at passed
      cases passed
    | ok sampler =>
      rw [checked] at passed
      exact ⟨sampler, rfl, (Except.ok.inj passed).symm⟩
  · rw [Bool.not_eq_true] at mode
    rw [mode] at passed
    cases passed

/-- Settings that pass have doubles for thresholds and are otherwise as they were. -/
theorem eq_of_checked {s s' : Settings} (passed : s.checked = .ok s') :
    ∃ x y, s.sampler.refreshThreshold.toFloat = .ok x ∧ s.sampler.directHold.toFloat = .ok y ∧
      s' = { s with sampler := { s.sampler with refreshThreshold := .float x, directHold := .float y } } := by
  obtain ⟨sampler, checked, rfl⟩ := sampler_of_checked passed
  obtain ⟨x, y, first, second, rfl⟩ := sampler_checked_eq_ok_iff.mp checked
  exact ⟨x, y, toFloat_of_threshold first, toFloat_of_threshold second, rfl⟩

theorem settled_of_checked {s s' : Settings} (passed : s.checked = .ok s') {f : Field} (known : f ∈ Field.all) :
    f.settled (f.get s) = .ok (f.get s') := by
  obtain ⟨x, y, first, second, rfl⟩ := eq_of_checked passed
  revert f
  simp [Field.all, Field.settled, first, second, Except.map]

/-! ### The whole configuration -/

/-- The settings of a document under an environment. -/
def configured (environment : String → Option String) (rows : Rows) : Except Fault Settings := do
  Settings.ofDocument (← Override.apply environment rows)

theorem configured_eq (environment : String → Option String) (rows : Rows) :
    configured environment rows = (told environment Override.all).bind fun entries =>
      Settings.ofDocument (entries.foldl (fun d entry => entry.1.put entry.2 d) rows) := by
  rw [configured, Override.apply, applyEach_eq]
  cases told environment Override.all <;> rfl

theorem apart_of_mem : ∀ f ∈ Field.all, ∀ o ∈ Override.all, Apart o f := by decide

theorem named_once : ∀ f ∈ Field.all, Override.all.countP f.isNamedBy ≤ 1 := by decide

/-- What the overrides leave in a document: what they give a setting, or else what was there. -/
theorem inDocument_told {entries : List (Override × Value)} (read : told environment Override.all = .ok entries)
    {f : Field} (known : f ∈ Field.all) (rows : Rows) :
    f.inDocument (entries.foldl (fun d entry => entry.1.put entry.2 d) rows) =
      (latest f entries).or (f.inDocument rows) :=
  inDocument_entered (fun entry member => apart_of_mem f known entry.1 (mem_of_told read entry member)) rows

theorem chosen_of_configured {s : Settings} (done : configured environment rows = .ok s) {f : Field}
    (known : f ∈ Field.all) : (f.chosen environment rows).bind f.settled = .ok (f.get s) := by
  rw [configured_eq] at done
  cases read : told environment Override.all with
  | error e =>
    rw [read] at done
    cases done
  | ok entries =>
    rw [read] at done
    have settled := settled_of_checked done known
    rw [get_ofRows known, inDocument_told read known] at settled
    rw [Field.chosen, Field.inEnvironment?, latest_of_told read (named_once f known)]
    cases given : latest f entries with
    | none => simpa [given, Except.bind] using settled
    | some value => simpa [given, Except.bind] using settled

/-- Documents that say the same of every setting. -/
def Agree (rows other : Rows) : Prop := ∀ f ∈ Field.all, f.inDocument rows = f.inDocument other

theorem configured_of_agree {other : Rows} (agree : Agree rows other) :
    configured environment rows = configured environment other := by
  rw [configured_eq, configured_eq]
  cases read : told environment Override.all with
  | error e => rfl
  | ok entries =>
    refine congrArg Settings.checked (settings_ext fun f known => ?_)
    rw [get_ofRows known, get_ofRows known, inDocument_told read known, inDocument_told read known, agree f known]

/-! ### Documents that say the same -/

/-- Rows that differ in their order or in unknown keys only. -/
inductive Loose (known : String → Prop) : Rows → Rows → Prop
  | order {rows other : Rows} (distinct : Distinct rows) (same : rows.Perm other) : Loose known rows other
  | unknown {front back : Rows} (row : Value × Value) (strange : ∀ key, known key → row.1 ≠ .text key) :
      Loose known (front ++ row :: back) (front ++ back)
  | symm {rows other : Rows} : Loose known rows other → Loose known other rows
  | trans {rows other last : Rows} : Loose known rows other → Loose known other last → Loose known rows last

theorem Loose.lookup_eq {known : String → Prop} {rows other : Rows} (loose : Loose known rows other) {key : String}
    (own : known key) : Value.lookup key rows = Value.lookup key other := by
  induction loose with
  | order distinct same => exact lookup_perm distinct same key
  | unknown row strange =>
    have not_here : row.1.sameKey (.text key) = false :=
      Bool.eq_false_iff.mpr fun here => strange key own (sameKey_text_iff.mp here)
    simp [lookup_append, lookup_cons, not_here]
  | symm _ ih => exact ih.symm
  | trans _ _ first second => exact first.trans second

/-- The sections that settings are in. -/
def sections : List String := ["sampler", "collector", "local_exporter", "otel"]

/-- A key that the root of a document can have. -/
def RootKey (key : String) : Prop := key = "mode" ∨ key ∈ sections

/-- A key that a section can have. -/
def KeyOf (part key : String) : Prop := ∃ f ∈ Field.all, f.section = some part ∧ f.key = key

instance (part key : String) : Decidable (KeyOf part key) := by
  unfold KeyOf
  infer_instance

/-- Documents that differ only in unknown keys, in the order of keys, and in what stands for a section that says
nothing: an empty table, something that is no table, or no row at all. -/
inductive Varies : Rows → Rows → Prop
  | root {rows other : Rows} : Loose RootKey rows other → Varies rows other
  | inside {front back inner other : Rows} {part : String} :
      part ∈ sections → Loose (KeyOf part) inner other →
        Varies (front ++ (.text part, .table inner) :: back) (front ++ (.text part, .table other) :: back)
  | hollow {front back : Rows} {part : String} {v w : Value} :
      part ∈ sections → contents (some v) = [] → contents (some w) = [] →
        Varies (front ++ (.text part, v) :: back) (front ++ (.text part, w) :: back)
  | absent {front back : Rows} {part : String} {v : Value} :
      part ∈ sections → contents (some v) = [] → Value.lookup part (front ++ back) = none →
        Varies (front ++ (.text part, v) :: back) (front ++ back)
  | symm {rows other : Rows} : Varies rows other → Varies other rows
  | trans {rows other last : Rows} : Varies rows other → Varies other last → Varies rows last

theorem keys_of_mem : ∀ f ∈ Field.all, (f.section = none → f.key = "mode") ∧ ∀ part ∈ f.section, part ∈ sections := by
  decide

/-- A setting at the root does not depend on sections, and a setting in a section depends on its rows only. -/
theorem agree_of_lookup {rows other : Rows} (mode : Value.lookup "mode" rows = Value.lookup "mode" other)
    (parts : ∀ part ∈ sections, ∀ key, KeyOf part key →
      Value.lookup key (contents (Value.lookup part rows)) = Value.lookup key (contents (Value.lookup part other))) :
    Agree rows other := by
  intro f known
  have ⟨atRoot, inPart⟩ := keys_of_mem f known
  unfold Field.inDocument
  cases place : f.section with
  | none =>
    rw [atRoot place]
    exact mode
  | some part => exact parts part (inPart part place) f.key ⟨f, known, place, rfl⟩

theorem agree_of_section {front back : Rows} {part : String} {v w : Value} (here : part ∈ sections)
    (same : ∀ key, KeyOf part key → Value.lookup key (contents (some v)) = Value.lookup key (contents (some w))) :
    Agree (front ++ (.text part, v) :: back) (front ++ (.text part, w) :: back) := by
  have elsewhere {key : String} (other : key ≠ part) : Value.lookup key (front ++ (.text part, v) :: back) =
      Value.lookup key (front ++ (.text part, w) :: back) := by
    simp [lookup_append, lookup_cons, sameKey_texts, Ne.symm other]
  refine agree_of_lookup (elsewhere ?_) fun other _ key own => ?_
  · rintro rfl
    exact absurd here (by decide)
  · by_cases this : other = part
    · subst this
      cases before : Value.lookup other front with
      | some found => simp [lookup_append, before]
      | none => simpa [lookup_append, lookup_cons, sameKey_texts, before] using same key own
    · rw [elsewhere this]

theorem agree_of_varies {rows other : Rows} (varies : Varies rows other) : Agree rows other := by
  induction varies with
  | root loose =>
    refine agree_of_lookup (loose.lookup_eq (.inl rfl)) fun part here key _ => ?_
    rw [loose.lookup_eq (.inr here)]
  | inside here loose => exact agree_of_section here fun key own => loose.lookup_eq own
  | hollow here empty empty' =>
    refine agree_of_section here fun key _ => ?_
    rw [empty, empty']
  | @absent front back part v here empty away =>
    have elsewhere {key : String} (other : key ≠ part) : Value.lookup key (front ++ (.text part, v) :: back) =
        Value.lookup key (front ++ back) := by
      simp [lookup_append, lookup_cons, sameKey_texts, Ne.symm other]
    refine agree_of_lookup (elsewhere ?_) fun other _ key _ => ?_
    · rintro rfl
      exact absurd here (by decide)
    · by_cases this : other = part
      · subst this
        have nowhere := Option.or_eq_none_iff.mp ((lookup_append other front back).symm.trans away)
        simp [lookup_append, lookup_cons, sameKey_texts, nowhere, empty, contents_none]
      · rw [elsewhere this]
  | symm _ ih => exact fun f known => (ih f known).symm
  | trans _ _ first second => exact fun f known => (first f known).trans (second f known)

/-- A document with an unknown key in a section and a section that says nothing. -/
def untidy : Rows := [
  (.text "sampler", .null),
  (.text "otel", .table [(.text "service_name", .text "edge"), (.text "verify", .bool true)])]

def tidy : Rows := [(.text "otel", .table [(.text "service_name", .text "edge")])]

/-- A text, a number and a truth value from the environment. -/
def threeVariables : String → Option String
  | "TICKLOAD_SOURCE" => some "procfs"
  | "TICKLOAD_REFRESH_THRESHOLD_MS" => some " 1e3 "
  | "TICKLOAD_USE_NATIVE" => some "off"
  | _ => none

end CpuLoad.Precedence
