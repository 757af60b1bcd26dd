import CpuLoad.Value

/-!
Everything that can go wrong, by cause: a faulty setting, a value that is no number or too large a one, a missing entry,
a file that cannot be used, and what the surroundings report themselves. `SettingFault.message`, `FileFault.message` and
`Fault.message?` give the wording.
-/
namespace CpuLoad

/-- What is wrong with a setting. -/
inductive SettingFault
  /-- The mode is neither local nor online. -/
  | mode (found : Value)
  /-- A threshold of the sampler denotes no number. -/
  | threshold (key : String) (found : Value)
  /-- A threshold of the sampler is zero or less. -/
  | thresholdSign (key : String)
  /-- The text of an environment variable denotes no number. -/
  | environment (name text : String)
  /-- There is no tick source of that name. -/
  | source (found : Value) (known : List String)
  /-- The journal writes no other format than lines of JSON. -/
  | format (found : Value)
  /-- The document is not well formed. -/
  | document
  deriving Inhabited

def SettingFault.found? : SettingFault → Option Value
  | mode v => some v
  | threshold _ v => some v
  | source v _ => some v
  | format v => some v
  | _ => none

def SettingFault.message : SettingFault → String
  | mode v => "mode must be 'local' or 'online', got " ++ v.quoted
  | threshold key v => "sampler." ++ key ++ " must be a number, got " ++ v.quoted
  | thresholdSign key => "sampler." ++ key ++ " must be positive"
  | environment name s => "Invalid value for " ++ name ++ ": " ++ Quoted.quoted s
  | source v known =>
    "Unknown tick source " ++ v.quoted ++ " (expected one of " ++ ", ".intercalate known ++ ")"
  | format v => "Unsupported local exporter format " ++ v.quoted
  | document => "Cannot parse"

/-- Why a file or directory cannot be used. -/
inductive FileCause
  | missing
  | isDirectory
  | notDirectory
  | occupied
  | denied
  /-- A name, or the whole path, is longer than a file system takes. -/
  | tooLong
  | badName
  /-- The name has a code point without bytes. -/
  | unencodable
  /-- Any other reason that the system gives. -/
  | other (code : Nat) (reason : String)
  deriving DecidableEq, Inhabited

/-- A file or directory that cannot be used. -/
structure FileFault where
  cause : FileCause
  path : String
  deriving DecidableEq, Inhabited

/-- Whether the system itself refuses the file, as opposed to its name being none at all. -/
def FileCause.isRefusal : FileCause → Bool
  | badName | unencodable => false
  | _ => true

/-- The system's code of a cause and its words for it. -/
def FileCause.description : FileCause → Nat × String
  | missing => (2, "No such file or directory")
  | isDirectory => (21, "Is a directory")
  | notDirectory => (20, "Not a directory")
  | occupied => (17, "File exists")
  | denied => (13, "Permission denied")
  | tooLong => (36, "File name too long")
  | badName | unencodable => (22, "Invalid argument")
  | other code reason => (code, reason)

/-- The wording of a file that cannot be used. -/
def FileFault.message (f : FileFault) : String :=
  let (code, reason) := f.cause.description
  "[Errno " ++ toString code ++ "] " ++ reason ++ ": " ++ Quoted.quoted f.path

/-- The kinds of trouble that the surroundings report in words of their own. -/
inductive Trouble
  | system
  | denied
  | unsupported
  | invalid
  | runtime
  | division
  deriving DecidableEq, Inhabited

/-- What went wrong. -/
inductive Fault
  | setting (cause : SettingFault)
  /-- A text, or a double that is not a number, where a number is needed. -/
  | notNumber
  /-- A number beyond the range of what it has to fit into. -/
  | tooLarge
  /-- More items than there is room for. -/
  | noRoom
  /-- A value of a kind that the operation does not take. -/
  | wrongKind
  /-- A value without the operations of a text. -/
  | notText
  /-- A list, row or text that is too short. -/
  | missingEntry
  /-- A word or a key that is none of those expected. -/
  | unknownWord
  /-- A document, a list or a table with more levels than are read. -/
  | tooDeep
  /-- A time whose year the system's calendar does not reach. -/
  | noDate
  /-- A file whose bytes are not UTF-8. -/
  | encoding
  /-- A file that cannot be used. -/
  | file (fault : FileFault)
  /-- A write through a handle that has been closed. -/
  | closedHandle
  /-- A source that does not know for how long the system has been up. -/
  | noUptime (source : String)
  /-- A number of load averages other than one, two or three. -/
  | averageCount
  | reported (kind : Trouble) (message : String)
  /-- The user stops the program. It is no failure of the operation it falls into and is never caught. -/
  | interrupt (message : String)
  deriving Inhabited

namespace Fault

/-- The fault of a setting. Its wording shows the value, so a value without a text is the fault instead. -/
def ofSetting (cause : SettingFault) : Fault :=
  if (cause.found?.map Value.hasText).getD true then setting cause else notNumber

/-- Whether the fault is one of the operating system: a file that cannot be used, or a refusal it reports. -/
def isSystem : Fault → Bool
  | file f => f.cause.isRefusal
  | noDate => true
  | reported .system _ => true
  | reported .denied _ => true
  | _ => false

/-- Whether the operation failed, as opposed to being interrupted. -/
def isFailure : Fault → Bool
  | interrupt _ => false
  | _ => true

def message? : Fault → Option String
  | setting cause => some cause.message
  | noUptime source => some (source ++ " source does not report uptime")
  | averageCount => some "nelem must be between 1 and 3"
  | reported _ message => some message
  | interrupt message => some message
  | _ => none

/-! ### Operations that may fail -/

/-- The outcome of an operation, fault or not, without failing on the fault. -/
def attempt {m : Type → Type} [Monad m] {α : Type} (x : ExceptT Fault m α) : ExceptT Fault m (Except Fault α) :=
  ExceptT.lift x.run

/-- An operation on a part of the state. A fault keeps what was reached before it. -/
def onPart {m : Type → Type} [Monad m] {σ ρ α : Type} (part : ρ) (put : ρ → σ → σ)
    (x : ExceptT Fault (StateT ρ m) α) : ExceptT Fault (StateT σ m) α := do
  let (r, part) ← ExceptT.lift (StateT.lift (x.run.run part))
  modify (put part)
  MonadExcept.ofExcept r

end Fault

/-! ### Values that are shown -/

namespace Value

def shown (v : Value) : Except Fault String := if v.hasText then .ok v.quoted else .error .notNumber

/-- The text of a value where it stands alone. -/
def spelled (v : Value) : Except Fault String := if v.hasText then .ok v.plain else .error .notNumber

end Value
end CpuLoad
