import CpuLoad.Calendar
import CpuLoad.Clock
import CpuLoad.Files
import CpuLoad.JsonLine
import CpuLoad.Location
import CpuLoad.Notice
import CpuLoad.Settings

/-!
Batches are appended as lines of JSON to one file for each day of universal time. The journal keeps a handle on the file
it wrote last and the date of that file; when the date has changed it closes the handle and opens the file of the day.
Lines are passed on to the file when a batch is complete. Those before a sample that has none are held back meanwhile, as
far as the system does, and are passed on with the next batch or when the file is closed.
-/
namespace CpuLoad

/-- What a journal holds on to. -/
inductive Handle
  | none
  /-- An open file, that of the journal's date, with what was written and is not passed on yet. -/
  | live (held : String)
  /-- A file that was closed before the next one could be opened. -/
  | closed
  deriving DecidableEq, Inhabited

/-- A journal over a directory. -/
structure Journal where
  directory : String
  handle : Handle
  date : Option Calendar.Date
  deriving Inhabited

namespace Journal
variable {m : Type → Type} [Monad m] [Log m] [Clock m] [Files m]

def fileName (d : Calendar.Date) : String := "cpu-load-" ++ d.text ++ ".jsonl"

def fileOf (directory : String) (d : Calendar.Date) : String := Location.join directory (fileName d)

def path? (j : Journal) : Option String := j.date.map (fileOf j.directory)

def formatName : String := "jsonl"

/-- A journal over the directory of the settings, which is made if it is not there. -/
def start (s : JournalSettings) : ExceptT Fault m Journal := do
  if !s.format.sameKey (.text formatName) then throw (.ofSetting (.format s.format))
  match s.directory with
  | .text directory =>
    let directory := Location.normal directory
    Files.request (Files.makeDirectory directory)
    note (.journalOpened directory)
    return ⟨directory, .none, none⟩
  | _ => throw .wrongKind

/-- What runs against a journal: a fault keeps the state reached before it. -/
abbrev JournalM (m : Type → Type) := ExceptT Fault (StateT Journal m)

/-- The date of the wall clock. -/
def today : JournalM m Calendar.Date := do
  MonadExcept.ofExcept (Calendar.dateOf (← (Clock.wallSeconds : JournalM m Value)))

/-- The journal once its handle, if it has one, is closed for the file of another date. -/
def turn (d : Calendar.Date) (j : Journal) : Journal :=
  { j with handle := if j.handle = .none then .none else .closed, date := some d }

def holds (d : Calendar.Date) (j : Journal) : Bool := j.handle != .none && j.date == some d

/-- Passes on what is held back. -/
def flush : JournalM m Unit := do
  let j ← get
  match j.handle, j.path? with
  | .live held, some path =>
    if held != "" then ExceptT.lift (Files.append path held)
    set { j with handle := .live "" }
  | _, _ => return

/-- Sees to it that the handle is one on the file of the day. A file that is closed gets what is held back. -/
def toToday : JournalM m Unit := do
  let d ← today
  let j ← get
  if !j.holds d then
    flush
    modify (turn d)
    Files.request (Files.openEnd (fileOf j.directory d))
    modify fun j => { j with handle := .live "" }

/-- Writes a text through the handle. What is not passed on at once is held back. -/
def write (text : String) : JournalM m Unit := do
  let j ← get
  match j.handle, j.path? with
  | .live held, some path =>
    let held ← ExceptT.lift (Files.write path (held ++ text))
    set { j with handle := .live held }
  | _, _ => throw .closedHandle

/-- Writes the lines of samples one after the other, up to the first that has none. -/
def writeLines : List Sample → JournalM m Unit
  | [] => return
  | s :: rest => do
    write (← MonadExcept.ofExcept (JsonLine.lineOf s))
    writeLines rest

/-- Appends the lines of a batch to the file of the day. An empty batch does nothing. -/
def append (batch : List Sample) : JournalM m Unit := do
  if batch.isEmpty then return
  toToday
  writeLines batch
  flush

def close : JournalM m Unit := do
  flush
  modify fun j => { j with handle := .none }
  note .journalClosed

/-- Runs an operation and then closes the journal, also if the operation fails. -/
def within (x : JournalM m Unit) : JournalM m Unit := do
  let outcome ← Fault.attempt x
  close
  MonadExcept.ofExcept outcome

end Journal
end CpuLoad
