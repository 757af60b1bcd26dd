import CpuLoad.Commands
import CpuLoad.KernelTimes

/-!
The command line over the files, clocks and streams of a Linux system. Notices go to the standard error from the level
on that the command line asks for. Gauges need a telemetry service, and this build has none: the calls are dropped. A
run of collection ends with its cap of rounds or with the process.
-/
namespace CpuLoad.Main

/-- What the program remembers of itself. -/
structure Session where
  /-- The level from which notices are printed, none before the command line is read. -/
  level : Option Level := none
  /-- The statistics file at the last direct reading. -/
  statistics : String := ""

/-- What the program runs in. -/
abbrev SessionM := StateT Session IO

def weight : Level → Nat
  | .debug => 0
  | .info => 1
  | .warning => 2
  | .error => 3

/-- The text of a file, empty if it cannot be read. -/
def textOf (path : String) : IO String := do
  try
    let bytes ← IO.FS.readBinFile path
    return ((Files.decode bytes).toOption).getD ""
  catch _ => return ""

def causeOf : IO.Error → FileCause
  | .noFileOrDirectory .. => .missing
  | .noSuchThing .. => .missing
  | .permissionDenied .. => .denied
  | .alreadyExists .. => .occupied
  | .invalidArgument _ 36 _ => .tooLong
  | .inappropriateType _ 21 _ => .isDirectory
  | .inappropriateType .. => .notDirectory
  | e => .other 5 (toString e)

/-- A text as the system's streams and files have it. -/
def native (s : String) : String := String.ofList (CodePoint.toChars s)

def access {α : Type} (path : String) (x : String → IO α) : SessionM (Except FileFault α) := do
  match CodePoint.chars? path with
  | none => return .error ⟨.unencodable, path⟩
  | some cs =>
    if cs.contains '\x00' then return .error ⟨.badName, path⟩
    try return .ok (← x (String.ofList cs)) catch e => return .error ⟨causeOf e, path⟩

instance : Log SessionM where
  record r := do
    if let some least := (← get).level then
      if weight least ≤ weight r.level then
        IO.eprintln (native ("[" ++ r.level.name ++ "] " ++ r.origin ++ ": " ++ r.text))
  spoilt _ := return .ok ()

/-- The wall-clock time. -/
def wallSeconds : IO Float := do
  let start := (KernelTimes.started (← textOf "/proc/stat")).getD 0.0
  let up := (((Blank.wordsOf (← textOf "/proc/uptime")).head?).bind Numeral.float?).getD 0.0
  return start + up

instance : Clock SessionM where
  milliseconds := do return .float (Float.ofNat (← IO.monoMsNow))
  wallSeconds := do return .float (← wallSeconds)

instance : Files SessionM where
  read path := access path fun path => IO.FS.readBinFile path
  isPresent path := do
    match ← access path fun path => IO.FS.Handle.mk path .read with
    | .ok _ => return .ok true
    | .error fault => return if fault.cause = .tooLong then .error fault else .ok (fault.cause = .denied)
  makeDirectory path := access path fun path => IO.FS.createDirAll path
  openEnd path := do return (← access path fun path => IO.FS.Handle.mk path .append).map fun _ => ()
  write _ text := return text
  append path text := do
    let handle ← IO.FS.Handle.mk (native path) .append
    handle.putStr (native text)
    handle.flush

instance : Telemetry SessionM := ⟨fun _ => pure ()⟩

/-- The description of all options. -/
def helpText : String :=
  "usage: tickload [-h] [--config CONFIG] [--verbose] [sample|collect|version]\n\n" ++
  "Processor utilization from CPU tick counters\n\n" ++
  "commands:\n" ++
  "  sample [--count N] [--interval SECONDS] [--source SOURCE]   print system and per-core CPU load\n" ++
  "  collect [--iterations N]                                    collect CPU load and export it\n" ++
  "  version                                                     print version\n"

def tableLines (t : Collector.LoadTable) : List String :=
  t.title :: (t.columns.map (·.1) :: t.rows).map fun cells => "  ".intercalate cells

/-- What the kernel reports about the processors' times. -/
def platform (statistics : String) : TimesPlatform SessionM where
  logical := some (KernelTimes.processorRows statistics).length
  physical := none
  times := do return KernelTimes.aggregate (← textOf "/proc/stat")
  processorTimes := do return KernelTimes.processors (← textOf "/proc/stat")
  percent := do
    let now ← textOf "/proc/stat"
    let before := (← get).statistics
    modify fun s => { s with statistics := now }
    return ((KernelTimes.percent before now).map Value.float).getD .null
  now := Clock.wallSeconds
  started := do return .float ((KernelTimes.started (← textOf "/proc/stat")).getD 0.0)
  averages := do
    match ((Blank.wordsOf (← textOf "/proc/loadavg")).take 3).mapM Numeral.float? with
    | some averages => return .list (averages.map .float)
    | none => throw (.reported .system "load averages unavailable")
  hasDescriptions := true

def pause (seconds : Float) : IO Unit := IO.sleep (seconds * 1000.0).toUInt32

instance : Host SessionM where
  machine := do
    let statistics ← textOf "/proc/stat"
    return {
      hardware := Blank.trimText (← textOf "/proc/sys/kernel/arch")
      processor := ""
      processors := some (KernelTimes.processorRows statistics).length
      procRoot := "/proc"
      deviceRoot := "/sys"
      times := platform statistics }
  environment := do
    let known ← Override.all.mapM fun o => do
      return (o.name, (← IO.getEnv o.name).map fun s => CodePoint.ofChars s.toList)
    return fun name => (known.lookup name).join
  present
    | .text s => IO.print (native s)
    | .help => IO.print helpText
    | .usage => IO.eprint helpText
    | .complaint cause => IO.eprintln (native ("Configuration error: " ++ cause.message))
    | .line s => IO.println (native s)
    | .table t => (tableLines t).forM fun line => IO.println (native line)
  report level := modify fun s => { s with level := some level }
  sleep seconds := do pause (← MonadExcept.ofExcept seconds.toFloat)
  watch _ := pure ()
  isStopped := pure false
  wait interval := do pause (← MonadExcept.ofExcept interval.toFloat)

end CpuLoad.Main

-- Powers are the core library's, whatever else is loaded. For that a literal exponent has its type.
attribute [local instance (high)] instPowNat

/-- Carries out a command line. -/
def main (args : List String) : IO UInt32 := do
  let args := args.map fun a => CpuLoad.CodePoint.ofChars a.toList
  let (result, _) ← (CpuLoad.Commands.run args (2 ^ (62 : Nat)) : CpuLoad.Main.SessionM _).run {}
  match result with
  | .exit status => return status.toUInt32
  | .failed fault =>
    IO.eprintln (fault.message?.getD "The program failed.")
    return 1
