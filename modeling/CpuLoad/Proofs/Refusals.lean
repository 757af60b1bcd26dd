import CpuLoad.Commands
import CpuLoad.Proofs.Outcome
import CpuLoad.Proofs.Precedence

/-!
How settings are refused. Four values are checked in turn: the mode, the two thresholds of the sampler and the name of its
source. A value that a check refuses is mostly the subject of a complaint, with which the program ends with the status
two. But some values go astray (`Strays`): an integer beyond all doubles as a threshold, a list or a table as a name, and
whatever has to be shown in the complaint and has no text. These faults leave the program as they are.
-/
namespace CpuLoad.Refusals
open CpuLoad.Outcome CpuLoad.Precedence

/-- Whether a fault says what is wrong with a setting. -/
def IsComplaint (e : Fault) : Prop := ∃ cause, e = .setting cause

variable {v : Value} {e : Fault} {cause : SettingFault}

/-- A complaint about a value is made exactly if the value has a text. -/
theorem ofSetting_eq (about : cause.found? = some v) :
    Fault.ofSetting cause = if v.hasText then .setting cause else .notNumber := by
  simp [Fault.ofSetting, about]

theorem ofSetting_strays_iff (about : cause.found? = some v) :
    Fault.ofSetting cause = e ∧ ¬ IsComplaint e ↔ ¬ v.hasText ∧ e = .notNumber := by
  rw [ofSetting_eq about]
  by_cases shown : v.hasText
  · rw [if_pos shown]
    constructor
    · rintro ⟨rfl, other⟩
      exact absurd ⟨cause, rfl⟩ other
    · rintro ⟨unwritable, _⟩
      exact absurd shown unwritable
  · rw [if_neg shown]
    constructor
    · rintro ⟨rfl, _⟩
      exact ⟨shown, rfl⟩
    · rintro ⟨_, rfl⟩
      exact ⟨rfl, nofun⟩

/-! ### Checks -/

/-- A check of a value that is set. -/
inductive Check
  | mode (v : Value)
  | threshold (key : String) (v : Value)
  | source (v : Value)

namespace Check

def run : Check → Except Fault Unit
  | mode v => if Settings.isMode v then .ok () else .error (.ofSetting (.mode v))
  | threshold key v => (SamplerSettings.threshold key v).map fun _ => ()
  | source v => (SourceKind.ofSetting v).map fun _ => ()

/-- A value that a check refuses without a complaint. -/
inductive Strays : Check → Fault → Prop
  | mode {v : Value} (unwritable : ¬ v.hasText) : Strays (.mode v) .notNumber
  /-- A threshold beyond all doubles. -/
  | large {key : String} {n : Int} (beyond : Binary64.ofInt? n = none) : Strays (.threshold key (.int n)) .tooLarge
  | threshold {key : String} {v : Value} (unread : v.toFloat = .error .wrongKind) (unwritable : ¬ v.hasText) :
      Strays (.threshold key v) .notNumber
  /-- A name that cannot be looked up. -/
  | key {v : Value} (noKey : ¬ v.isKey) : Strays (.source v) .wrongKind
  | source {v : Value} (isKey : v.isKey) (unwritable : ¬ v.hasText) : Strays (.source v) .notNumber

theorem hasText_of_sameKey {key : String} (same : v.sameKey (.text key)) : v.hasText := by
  rw [sameKey_text_iff.mp same]
  rfl

theorem hasText_of_isMode (known : Settings.isMode v) : v.hasText := by
  unfold Settings.isMode at known
  rcases (Bool.or_eq_true _ _).mp known with same | same
  · exact hasText_of_sameKey same
  · exact hasText_of_sameKey same

theorem eq_none_of_getD {α : Type} {found : Option α} {reason : Fault}
    (missing : (found.map Except.ok).getD (.error reason) = .error e) : found = none ∧ e = reason := by
  cases found with
  | none =>
    cases missing
    exact ⟨rfl, rfl⟩
  | some a => cases missing

/-- Why a value has no double. -/
theorem toFloat_error_cases (unread : v.toFloat = .error e) :
    (∃ n, v = .int n ∧ Binary64.ofInt? n = none ∧ e = .tooLarge) ∨ (v.hasText ∧ e = .notNumber) ∨
      e = .wrongKind := by
  cases v with
  | int n =>
    obtain ⟨beyond, rfl⟩ := eq_none_of_getD unread
    exact .inl ⟨n, rfl, beyond, rfl⟩
  | text | bytes =>
    obtain ⟨_, rfl⟩ := eq_none_of_getD unread
    exact .inr (.inl ⟨rfl, rfl⟩)
  | bool | float => cases unread
  | null | list | table | time | pair | set | again =>
    cases unread
    exact .inr (.inr rfl)

/-- A check that complains about a value goes astray exactly if the value has no text. -/
theorem refused_strays_iff {c : Check} (refused : c.run = .error (.ofSetting cause)) (about : cause.found? = some v) :
    c.run = .error e ∧ ¬ IsComplaint e ↔ ¬ v.hasText ∧ e = .notNumber := by
  rw [refused, Except.error.injEq, ofSetting_strays_iff about]

theorem strays_mode_iff : (mode v).run = .error e ∧ ¬ IsComplaint e ↔ Strays (.mode v) e := by
  by_cases known : Settings.isMode v
  · constructor
    · rintro ⟨refused, _⟩
      simp [run, known] at refused
    · rintro ⟨unwritable⟩
      exact absurd (hasText_of_isMode known) unwritable
  · have refused : (mode v).run = .error (.ofSetting (.mode v)) := if_neg known
    rw [refused_strays_iff refused rfl]
    constructor
    · rintro ⟨unwritable, rfl⟩
      exact .mode unwritable
    · rintro ⟨unwritable⟩
      exact ⟨unwritable, rfl⟩

section
variable {key : String}

theorem run_threshold_of_unread (unread : v.toFloat = .error e) (small : e ≠ .tooLarge) :
    (threshold key v).run = .error (.ofSetting (.threshold key v)) := by
  simp only [run, SamplerSettings.threshold, unread]
  cases e with
  | tooLarge => exact absurd rfl small
  | _ => rfl

/-- A threshold that goes astray cannot be read. -/
theorem unread_of_strays (strays : Strays (.threshold key v) e) :
    (v.toFloat = .error .tooLarge ∧ e = .tooLarge) ∨
      (v.toFloat = .error .wrongKind ∧ ¬ v.hasText ∧ e = .notNumber) := by
  rcases strays with _ | beyond | ⟨unread, unwritable⟩
  · refine .inl ⟨?_, rfl⟩
    simp [Value.toFloat, beyond]
  · exact .inr ⟨unread, unwritable, rfl⟩

theorem strays_threshold_iff : (threshold key v).run = .error e ∧ ¬ IsComplaint e ↔ Strays (.threshold key v) e := by
  cases read : v.toFloat with
  | ok x =>
    constructor
    · rintro ⟨refused, other⟩
      simp only [run, SamplerSettings.threshold, read] at refused
      by_cases least : x ≤ 0.0
      · rw [if_pos least] at refused
        cases refused
        exact absurd ⟨_, rfl⟩ other
      · rw [if_neg least] at refused
        cases refused
    · intro strays
      rcases unread_of_strays strays with ⟨unread, _⟩ | ⟨unread, _⟩
      · cases read.symm.trans unread
      · cases read.symm.trans unread
  | error cause =>
    rcases toFloat_error_cases read with ⟨n, rfl, beyond, rfl⟩ | ⟨writable, rfl⟩ | rfl
    · have refused : (threshold key (.int n)).run = .error .tooLarge := by
        simp only [run, SamplerSettings.threshold, read]
        rfl
      rw [refused]
      constructor
      · rintro ⟨⟨⟩, _⟩
        exact .large beyond
      · intro strays
        rcases unread_of_strays strays with ⟨_, rfl⟩ | ⟨unread, _⟩
        · exact ⟨rfl, nofun⟩
        · cases read.symm.trans unread
    · rw [refused_strays_iff (run_threshold_of_unread read nofun) rfl]
      constructor
      · rintro ⟨unwritable, _⟩
        exact absurd writable unwritable
      · intro strays
        rcases unread_of_strays strays with ⟨unread, _⟩ | ⟨unread, _⟩
        · cases read.symm.trans unread
        · cases read.symm.trans unread
    · rw [refused_strays_iff (run_threshold_of_unread read nofun) rfl]
      constructor
      · rintro ⟨unwritable, rfl⟩
        exact .threshold read unwritable
      · intro strays
        rcases unread_of_strays strays with ⟨unread, _⟩ | ⟨_, unwritable, rfl⟩
        · cases read.symm.trans unread
        · exact ⟨unwritable, rfl⟩

end

theorem strays_source_iff : (source v).run = .error e ∧ ¬ IsComplaint e ↔ Strays (.source v) e := by
  by_cases isKey : v.isKey
  · cases found : SourceKind.all.find? fun k => v.sameKey (.text k.name) with
    | some k =>
      have same : v.sameKey (.text k.name) := by simpa using List.find?_some found
      have writable : v.hasText := hasText_of_sameKey same
      have passed : (source v).run = .ok () := by simp [run, SourceKind.ofSetting, isKey, found, Except.map]
      rw [passed]
      constructor
      · rintro ⟨⟨⟩, _⟩
      · rintro (_ | _ | _ | noKey | ⟨_, unwritable⟩)
        · exact absurd isKey noKey
        · exact absurd writable unwritable
    | none =>
      have refused : (source v).run = .error (.ofSetting (.source v (SourceKind.all.map SourceKind.name))) := by
        simp [run, SourceKind.ofSetting, isKey, found, Except.map]
      rw [refused_strays_iff refused rfl]
      constructor
      · rintro ⟨unwritable, rfl⟩
        exact .source isKey unwritable
      · rintro (_ | _ | _ | noKey | ⟨_, unwritable⟩)
        · exact absurd isKey noKey
        · exact ⟨unwritable, rfl⟩
  · have refused : (source v).run = .error .wrongKind := by simp [run, SourceKind.ofSetting, isKey, Except.map]
    rw [refused]
    constructor
    · rintro ⟨⟨⟩, _⟩
      exact .key isKey
    · rintro (_ | _ | _ | _ | ⟨known, _⟩)
      · exact ⟨rfl, nofun⟩
      · exact absurd known isKey

/-- A check refuses a value without a complaint exactly if the value goes astray. -/
theorem strays_iff (c : Check) : c.run = .error e ∧ ¬ IsComplaint e ↔ Strays c e := by
  cases c with
  | mode v => exact strays_mode_iff
  | threshold key v => exact strays_threshold_iff
  | source v => exact strays_source_iff

end Check

/-! ### All checks in turn -/

/-- The checks of some settings, in their order. -/
def checksOf (s : Settings) : List Check := [
  .mode s.mode,
  .threshold SamplerSettings.thresholdKey s.sampler.refreshThreshold,
  .threshold SamplerSettings.holdKey s.sampler.directHold,
  .source s.sampler.source]

/-- Runs checks in turn up to the first one that refuses its value. -/
def runAll : List Check → Except Fault Unit
  | [] => .ok ()
  | c :: rest => do c.run; runAll rest

/-- Whether the first value that is refused goes astray. -/
def StraysFirst (checks : List Check) (e : Fault) : Prop :=
  ∃ passed c rest, checks = passed ++ c :: rest ∧ (∀ b ∈ passed, b.run = .ok ()) ∧ c.Strays e

theorem runAll_eq_error_iff {checks : List Check} : runAll checks = .error e ↔
    ∃ passed c rest, checks = passed ++ c :: rest ∧ (∀ b ∈ passed, b.run = .ok ()) ∧ c.run = .error e := by
  induction checks with
  | nil =>
    constructor
    · rintro ⟨⟩
    · rintro ⟨passed, c, rest, split, _⟩
      simp at split
  | cons first checks ih =>
    unfold runAll
    cases own : first.run with
    | error cause =>
      constructor
      · rintro ⟨⟩
        exact ⟨[], first, checks, rfl, by simp, own⟩
      · rintro ⟨passed, c, rest, split, good, refused⟩
        rcases List.cons_eq_append_iff.mp split with ⟨rfl, same⟩ | ⟨front, rfl, _⟩
        · cases same
          rw [← refused, own]
          rfl
        · have contra := good first (List.mem_cons_self ..)
          rw [own] at contra
          cases contra
    | ok done =>
      refine Iff.trans ih ?_
      constructor
      · rintro ⟨passed, c, rest, rfl, good, refused⟩
        exact ⟨first :: passed, c, rest, rfl, List.forall_mem_cons.mpr ⟨own, good⟩, refused⟩
      · rintro ⟨passed, c, rest, split, good, refused⟩
        rcases List.cons_eq_append_iff.mp split with ⟨rfl, same⟩ | ⟨front, rfl, rfl⟩
        · cases same
          rw [own] at refused
          cases refused
        · exact ⟨front, c, rest, rfl, (List.forall_mem_cons.mp good).2, refused⟩

theorem straysFirst_iff {checks : List Check} :
    runAll checks = .error e ∧ ¬ IsComplaint e ↔ StraysFirst checks e := by
  rw [runAll_eq_error_iff]
  constructor
  · rintro ⟨⟨passed, c, rest, split, good, refused⟩, other⟩
    exact ⟨passed, c, rest, split, good, c.strays_iff.mp ⟨refused, other⟩⟩
  · rintro ⟨passed, c, rest, split, good, strays⟩
    obtain ⟨refused, other⟩ := c.strays_iff.mpr strays
    exact ⟨⟨passed, c, rest, split, good, refused⟩, other⟩

/-! ### From a document to a source -/

/-- The settings of a sampler with the name of another source, if one is given. -/
def naming (named : Option Value) (s : SamplerSettings) : SamplerSettings := { s with source := named.getD s.source }

/-- The kind of source that a sampler is set up with. -/
def choice (s : SamplerSettings) : Except Fault SourceKind := do
  SourceKind.ofSetting (← s.checked).source

/-- The kind of source that some settings lead to. The sampler's part of them is checked once more when it is set up. -/
def kindOf (named : Option Value) (s : Settings) : Except Fault SourceKind := do
  choice (naming named (← s.checked).sampler)

theorem threshold_again {key : String} {v : Value} {x : Float} (other : String)
    (passed : SamplerSettings.threshold key v = .ok x) : SamplerSettings.threshold other (.float x) = .ok x := by
  unfold SamplerSettings.threshold at passed
  rw [toFloat_of_threshold passed] at passed
  dsimp only at passed
  by_cases least : x ≤ 0.0
  · rw [if_pos least] at passed
    cases passed
  · exact if_neg least

/-- The settings lead to a source exactly if all their checks pass, and else to the fault of the first that does not. -/
theorem map_kindOf (named : Option Value) (s : Settings) : (kindOf named s).map (fun _ => ()) =
    runAll (checksOf { s with sampler := naming named s.sampler }) := by
  unfold kindOf choice Settings.checked SamplerSettings.checked SamplerSettings.check checksOf
  by_cases mode : Settings.isMode s.mode
  · cases first : SamplerSettings.threshold SamplerSettings.thresholdKey s.sampler.refreshThreshold with
    | error e => simp [mode, first, naming, runAll, Check.run, bind, Except.bind, Except.map]
    | ok x =>
      have again := threshold_again SamplerSettings.thresholdKey first
      cases second : SamplerSettings.threshold SamplerSettings.holdKey s.sampler.directHold with
      | error e => simp [mode, first, second, naming, runAll, Check.run, bind, Except.bind, Except.map]
      | ok y =>
        have also := threshold_again SamplerSettings.holdKey second
        cases found : SourceKind.ofSetting (named.getD s.sampler.source) <;>
          simp [mode, first, second, again, also, found, naming, runAll, Check.run, bind, Except.bind, pure, Except.pure,
            Except.map]
  · simp [mode, runAll, Check.run, bind, Except.bind, throw, throwThe, MonadExceptOf.throw, Except.map]

theorem kindOf_strays_iff {named : Option Value} {s : Settings} : kindOf named s = .error e ∧ ¬ IsComplaint e ↔
    StraysFirst (checksOf { s with sampler := naming named s.sampler }) e := by
  rw [← straysFirst_iff, ← map_kindOf]
  cases kindOf named s <;> simp [Except.map]

section
variable {δ : Type} (put : Override → Value → δ → δ) (settingsIn : δ → Settings) (named : Option Value)
  (environment : String → Option String) (document : δ)

/-- The kind of source that a document leads to under an environment. -/
def kindIn : Except Fault SourceKind := do
  kindOf named (settingsIn (← Override.applyEach put environment Override.all document))

/-- The settings of a document once some values have been entered. -/
def entered (entries : List (Override × Value)) : Settings :=
  settingsIn (entries.foldl (fun d entry => put entry.1 entry.2 d) document)

/-- Whether a document goes astray under an environment: all variables can be read, and the first value that is refused
    then has no complaint. -/
def DocumentStrays (e : Fault) : Prop :=
  ∃ entries, told environment Override.all = .ok entries ∧
    let s := entered put settingsIn document entries
    StraysFirst (checksOf { s with sampler := naming named s.sampler }) e

variable {put settingsIn named environment document}

theorem isComplaint_of_read {o : Override} {text : String} (refused : o.read text = .error e) : IsComplaint e := by
  unfold Override.read at refused
  cases form : o.form with
  | text | truth =>
    rw [form] at refused
    cases refused
  | number =>
    rw [form] at refused
    cases read : Numeral.float? text with
    | none =>
      rw [read] at refused
      cases refused
      exact ⟨_, rfl⟩
    | some x =>
      rw [read] at refused
      cases refused

/-- A variable that cannot be read is the subject of a complaint. -/
theorem isComplaint_of_told {os : List Override} (refused : told environment os = .error e) : IsComplaint e := by
  induction os with
  | nil => cases refused
  | cons o rest ih =>
    unfold told at refused
    cases known : environment o.name with
    | none =>
      rw [known] at refused
      exact ih refused
    | some text =>
      rw [known] at refused
      cases read : o.read text with
      | error cause =>
        simp only [read] at refused
        cases refused
        exact isComplaint_of_read read
      | ok value =>
        cases later : told environment rest with
        | error cause =>
          simp only [read, later] at refused
          cases refused
          exact ih later
        | ok entries =>
          simp only [read, later] at refused
          cases refused

theorem kindIn_strays_iff : kindIn put settingsIn named environment document = .error e ∧ ¬ IsComplaint e ↔
    DocumentStrays put settingsIn named environment document e := by
  unfold kindIn DocumentStrays
  rw [applyEach_eq]
  cases read : told environment Override.all with
  | error cause =>
    constructor
    · rintro ⟨⟨⟩, other⟩
      exact absurd (isComplaint_of_told read) other
    · rintro ⟨entries, ⟨⟩, _⟩
  | ok entries =>
    refine (kindOf_strays_iff (s := entered put settingsIn document entries)).trans ?_
    constructor
    · intro strays
      exact ⟨entries, rfl, strays⟩
    · rintro ⟨_, ⟨⟩, strays⟩
      exact strays

end

theorem kindIn_rows (environment : String → Option String) (rows : Rows) :
    kindIn Override.put Settings.ofRows none environment rows =
      (configured environment rows).bind fun s => choice s.sampler := by
  unfold kindIn configured Override.apply
  cases Override.applyEach Override.put environment Override.all rows <;> rfl

/-! ### Command lines -/

/-- The name of a source that a command gives. -/
def sourceNamed : Command → Option Value
  | .sample options => if options.source.truth then some options.source else none
  | _ => none

/-- The settings that a configuration document has. -/
def settingsIn (d : Markup.Document) : Settings := .ofParts (d.find? d.root) d.findIn?

theorem kindIn_settingsIn (named : Option Value) (environment : String → Option String) (d : Markup.Document) :
    kindIn Configuration.override settingsIn named environment d =
      (Configuration.settingsOf environment d).bind fun s => choice (naming named s.sampler) := by
  unfold kindIn Configuration.settingsOf
  cases Override.applyEach Configuration.override environment Override.all d <;> rfl

section
open CpuLoad.Commands
variable {ω : Type} [Files (StateM ω)] {world left : ω} {environment : String → Option String} {d : Markup.Document}

theorem run_sampler [Clock (StateM ω)] (machine : Machine (StateM ω)) {s : SamplerSettings} (refused : choice s = .error e)
    (world : ω) : (machine.sampler s).run.run world = (.error e, world) := by
  unfold choice at refused
  unfold Machine.sampler
  cases checked : s.checked with
  | error cause =>
    rw [checked] at refused
    cases refused
    rfl
  | ok s =>
    rw [checked] at refused
    refine (run_bind_ok (run_ofExcept (.ok s) world)).trans (run_bind_error ?_)
    exact (run_ofExcept _ _).trans (congrArg (·, world) refused)

variable [Host (StateM ω)]

/-- What the program reads its settings from. -/
def readDocument (config : Value) : ExceptT Fault (StateM ω) ((String → Option String) × Markup.Document) := do
  let environment ← ExceptT.lift (Host.environment : StateM ω (String → Option String))
  let path ← MonadExcept.ofExcept (Configuration.pathOf config)
  return (environment, ← Configuration.document path)

theorem run_settings {config : Value} (read : (readDocument config).run.run world = (.ok (environment, d), left)) :
    (settings config : ExceptT Fault (StateM ω) Settings).run.run world =
      (Configuration.settingsOf environment d, left) := by
  have shape : (settings config : ExceptT Fault (StateM ω) Settings) =
      readDocument config >>= fun r => MonadExcept.ofExcept (Configuration.settingsOf r.1 r.2) := by
    unfold settings readDocument Configuration.load
    simp only [bind_assoc, pure_bind]
  rw [shape]
  exact (run_bind_ok read).trans (run_ofExcept _ _)

/-- The end of a command that fails, with the complaint if there is one. -/
def endOf (e : Fault) (world : ω) : Result × ω :=
  match e with
  | .setting cause => (.exit 2, ((Host.present (.complaint cause) : StateM ω Unit).run world).2)
  | e => (.failed e, world)

variable [Clock (StateM ω)]

/-- Whatever a command is for, it begins with the settings, the machine and the sampler. -/
theorem run_bind_sampler {α : Type} {config : Value} {named : Option Value} (pick : SamplerSettings → SamplerSettings)
    (picks : ∀ s, pick s = naming named s)
    (rest : Settings → Source (StateM ω) × Sampler Value → ExceptT Fault (StateM ω) α)
    (read : (readDocument config).run.run world = (.ok (environment, d), left))
    (refused : kindIn Configuration.override settingsIn named environment d = .error e) :
    ∃ later, (do
      let known ← settings config
      let machine ← ExceptT.lift (Host.machine : StateM ω (Machine (StateM ω)))
      let made ← machine.sampler (pick known.sampler)
      rest known made : ExceptT Fault (StateM ω) α).run.run world = (.error e, later) := by
  have known := run_settings read
  rw [kindIn_settingsIn] at refused
  cases result : Configuration.settingsOf environment d with
  | error cause =>
    rw [result] at known refused
    cases refused
    exact ⟨left, run_bind_error known⟩
  | ok s =>
    rw [result] at known refused
    have chosen : choice (pick s.sampler) = .error e := picks s.sampler ▸ refused
    exact ⟨_, (run_bind_ok known).trans ((run_bind_ok (run_lift _ _)).trans (run_bind_error (run_sampler _ chosen _)))⟩

variable [Telemetry (StateM ω)]

theorem perform_of_refused {config : Value} {command : Command} (limit : Nat) (needed : command ≠ .version)
    (read : (readDocument config).run.run world = (.ok (environment, d), left))
    (refused : kindIn Configuration.override settingsIn (sourceNamed command) environment d = .error e) :
    ∃ later, (perform config limit command : ExceptT Fault (StateM ω) Unit).run.run world = (.error e, later) := by
  cases command with
  | version => exact absurd rfl needed
  | collect options =>
    unfold perform collect
    exact run_bind_sampler id (fun s => rfl) _ read refused
  | sample options =>
    unfold perform sample
    refine run_bind_sampler (fun s => if options.source.truth then { s with source := options.source } else s)
      (fun s => ?_) _ read refused
    unfold sourceNamed naming
    by_cases given : options.source.truth <;> simp [given]

theorem run_of_refused {args : List String} {i : Invocation} {command : Command} (limit : Nat)
    (parsed : Invocation.ofArguments args = .ok i) (given : i.command = some command) (needed : command ≠ .version)
    (read : (readDocument i.config).run.run
      ((Host.report (if i.verbose then .debug else .info) : StateM ω Unit).run world).2 = (.ok (environment, d), left))
    (refused : kindIn Configuration.override settingsIn (sourceNamed command) environment d = .error e) :
    ∃ later, (Commands.run args limit : StateM ω Result).run world = endOf e later := by
  obtain ⟨later, failed⟩ := perform_of_refused limit needed read refused
  refine ⟨later, ?_⟩
  unfold Commands.run
  rw [parsed]
  dsimp only
  rw [given]
  dsimp only
  simp only [StateT.run_bind]
  dsimp only [bind]
  rw [failed]
  cases e <;> rfl

end

/-- Settings that are refused are the subject of a complaint, unless the first value that is refused goes astray. This
holds of every document under every environment. The program then ends with the status two after it has shown the
complaint, and passes on the fault of a value that went astray. -/
theorem refusals_are_complaints_unless_strays (environment : String → Option String) (e : Fault) :
    (∀ rows : Rows,
      ((configured environment rows).bind fun s => choice s.sampler) = .error e ∧ ¬ IsComplaint e ↔
        DocumentStrays Override.put Settings.ofRows none environment rows e) ∧
    ∀ {ω : Type} [Files (StateM ω)] [Clock (StateM ω)] [Telemetry (StateM ω)] [Host (StateM ω)],
      (∀ (machine : Machine (StateM ω)) (s : SamplerSettings) (world : ω), choice s = .error e →
        (machine.sampler s).run.run world = (.error e, world)) ∧
      ∀ (args : List String) (limit : Nat) (i : Invocation) (command : Command) (d : Markup.Document) (world left : ω),
        Invocation.ofArguments args = .ok i → i.command = some command → command ≠ .version →
        (readDocument i.config).run.run
          ((Host.report (if i.verbose then .debug else .info) : StateM ω Unit).run world).2 =
            (.ok (environment, d), left) →
        kindIn Configuration.override settingsIn (sourceNamed command) environment d = .error e →
        (IsComplaint e ∨ DocumentStrays Configuration.override settingsIn (sourceNamed command) environment d e) ∧
        ∃ later, (Commands.run args limit : StateM ω Commands.Result).run world = endOf e later := by
  refine ⟨?_, ?_⟩
  · intro rows
    rw [← kindIn_rows]
    exact kindIn_strays_iff
  · intro ω _ _ _ _
    refine ⟨?_, ?_⟩
    · intro machine s world refused
      exact run_sampler machine refused world
    · intro args limit i command d world left parsed given needed read refused
      refine ⟨?_, run_of_refused limit parsed given needed read refused⟩
      by_cases complaint : IsComplaint e
      · exact .inl complaint
      · exact .inr (kindIn_strays_iff.mp ⟨refused, complaint⟩)

/-- Surroundings without any file: environment variables, and what the user was shown. -/
structure Terminal where
  environment : List (String × String)
  shown : List Output

instance : Files (StateM Terminal) where
  read path := return .error ⟨.missing, path⟩
  isPresent _ := return .ok false
  makeDirectory path := return .error ⟨.denied, path⟩
  openEnd path := return .error ⟨.denied, path⟩
  write _ text := return text
  append _ _ := return ()

instance : Clock (StateM Terminal) where
  milliseconds := return .int 0
  wallSeconds := return .int 0

instance : Telemetry (StateM Terminal) := ⟨fun _ => return ()⟩

instance : Host (StateM Terminal) where
  machine := return {
    hardware := "x86_64"
    processor := ""
    processors := none
    procRoot := "/proc"
    deviceRoot := "/sys"
    times :=
      { logical := none, physical := none, times := return [], processorTimes := return [], percent := return .null
        now := return .null, started := return .null, averages := return .list [], hasDescriptions := false } }
  environment := modifyGet fun t => (fun name => t.environment.lookup name, t)
  present o := modify fun t => { t with shown := t.shown ++ [o] }
  report _ := return ()
  sleep _ := return ()
  watch _ := return ()
  isStopped := return true
  wait _ := return ()

def impatient : Terminal := ⟨[("TICKLOAD_REFRESH_THRESHOLD_MS", "soon")], []⟩

theorem refusals_are_complaints_unless_strays_soon :
    ∃ later, (Commands.run ["collect"] 1 : StateM Terminal Commands.Result).run impatient =
      endOf (.setting (.environment "TICKLOAD_REFRESH_THRESHOLD_MS" "soon")) later := by
  have law := refusals_are_complaints_unless_strays (fun name => impatient.environment.lookup name)
    (.setting (.environment "TICKLOAD_REFRESH_THRESHOLD_MS" "soon"))
  have run := (law.2 (ω := Terminal)).2 ["collect"] 1 { command := some (.collect {}) } (.collect {}) .empty
    impatient impatient
  exact (run rfl rfl nofun rfl rfl).2

/-- A threshold beyond all doubles. -/
def excessive : Rows := [(.text "sampler", .table [(.text "refresh_threshold_ms", .int (Int.pow 10 400))])]

theorem excessive_threshold_strays :
    ((configured (fun _ => none) excessive).bind fun s => choice s.sampler) = .error .tooLarge ∧
      ¬ IsComplaint .tooLarge := by
  have beyond : Binary64.ofInt? (Int.pow 10 400) = none := Option.isNone_iff_eq_none.mp (by decide +kernel)
  rw [← kindIn_rows, kindIn_strays_iff]
  refine ⟨[], rfl, [.mode (.text "local")], .threshold "refresh_threshold_ms" (.int (Int.pow 10 400)), _, rfl, ?_,
    .large beyond⟩
  intro b member
  cases List.mem_singleton.mp member
  rfl

end CpuLoad.Refusals
