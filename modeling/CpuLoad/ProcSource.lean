import CpuLoad.Files
import CpuLoad.Source
import CpuLoad.StatFile

/-!
Ticks, uptime and load averages read from the files of a process file system. A file that cannot be opened counts as
one without ticks; a processor without a line of its own has a row of zeros.
-/
namespace CpuLoad.ProcSource
open CpuLoad.Blank
variable {m : Type → Type} [Monad m] [Files m] [Log m]

def readIfOpen (path : String) : ExceptT Fault m (Except FileFault String) := do
  match ← Fault.attempt (Files.readText path) with
  | .ok text => return .ok text
  | .error (.file fault) => if fault.cause.isRefusal then return .error fault else throw (.file fault)
  | .error fault => throw fault

/-- The text of a file, or nothing with a notice if the file cannot be opened. -/
def readOrNote (path : String) : ExceptT Fault m (Option String) := do
  match ← readIfOpen path with
  | .ok text => return some text
  | .error fault => note (.unread path fault.message); return none

/-- The identity that a file of processor descriptions and a file of the serial number add to one known otherwise. -/
def describe (descriptions serial : String) (fallback : Identity) : ExceptT Fault m Identity := do
  let fields := ((← readOrNote descriptions).map Identity.fieldsOf).getD []
  let number := (← readIfOpen serial).toOption.getD ""
  return fallback.withFields fields number

def statRows (root : String) : ExceptT Fault m (List (String × Snapshot)) := do
  match ← readOrNote (root ++ "/stat") with
  | none => return []
  | some text => MonadExcept.ofExcept (StatFile.rows text)

/-- The double that a word denotes. -/
def numberOf (word : String) : Except Fault Value := (Value.text word).toFloat.map .float

/-- The seconds since the system started: the first word of a file, and zero if the file cannot be opened. -/
def uptime (root : String) : ExceptT Fault m Value := do
  match ← readIfOpen (root ++ "/uptime") with
  | .error _ => note (.unreadSilently (root ++ "/uptime")); return .float 0.0
  | .ok text =>
    match wordsOf text with
    | [] => throw .missingEntry
    | word :: _ => MonadExcept.ofExcept (numberOf word)

/-- The load averages: the first three words of a file. -/
def averages (root : String) (count : Value) : ExceptT Fault m (List Value) := do
  match ← readIfOpen (root ++ "/loadavg") with
  | .error _ => MonadExcept.ofExcept (Source.noAverages count)
  | .ok text =>
    MonadExcept.ofExcept (do Source.firstCounted count (← ((wordsOf text).take 3).mapM numberOf))

def serialFile (deviceRoot : String) : String := deviceRoot ++ "/class/dmi/id/product_serial"

/-- The source over the files below two roots. -/
def source (root deviceRoot : String) (processors : Option Int) (platform : Identity) : Source m :=
  let logical := Source.countOr 1 processors
  { name := "procfs"
    logical := logical
    physical := logical
    identity := describe (root ++ "/cpuinfo") (serialFile deviceRoot) platform
    aggregate := do return (StatFile.aggregate (← statRows root)).toReading
    perProcessor := do
      let rows ← statRows root
      return .list ((List.range logical.toNat).map fun i => (StatFile.processor rows i).toReading)
    direct := none
    uptime := uptime root
    averages := averages root }

end CpuLoad.ProcSource
