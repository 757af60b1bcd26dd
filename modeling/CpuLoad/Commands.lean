import CpuLoad.Collector
import CpuLoad.Configuration
import CpuLoad.Gauges
import CpuLoad.Invocation
import CpuLoad.Journal
import CpuLoad.Rounds
import CpuLoad.SourceChoice

/-!
What the program does for a command line: print readings as tables, collect samples until told to stop, or print its
version. A faulty setting ends it with the status two; any other fault is passed on.
-/
namespace CpuLoad

/-- What the program shows its user. -/
inductive Output
  /-- Text on the standard output. -/
  | text (s : String)
  /-- The description of all options, on the standard output. -/
  | help
  /-- The description of how to call the program, among its errors. -/
  | usage
  | complaint (cause : SettingFault)
  | line (s : String)
  | table (t : Collector.LoadTable)
  deriving Inhabited

/-- The system that the program runs on, besides files, clocks, notices and telemetry. -/
class Host (m : Type → Type) where
  machine : m (Machine m)
  /-- The text of an environment variable. -/
  environment : m (String → Option String)
  /-- Shows something to the user. -/
  present : Output → m Unit
  report : Level → m Unit
  /-- Waits for some seconds. -/
  sleep : Value → ExceptT Fault m Unit
  /-- Watches for the signals that stop a run, or no longer. -/
  watch : Bool → m Unit
  /-- Whether such a signal has come. -/
  isStopped : m Bool
  /-- Waits for an interval, or until such a signal comes. -/
  wait : Value → ExceptT Fault m Unit

namespace Commands
variable {m : Type → Type} [Monad m] [Log m] [Clock m] [Files m] [Telemetry m] [Host m]

def version : String := "0.1.0"

/-- The settings under a configuration file, for a machine. -/
def settings (config : Value) : ExceptT Fault m Settings := do
  Configuration.load (← ExceptT.lift (Host.environment : m (String → Option String))) config

/-- Shows something. -/
def display (o : Output) : ExceptT Fault m Unit := ExceptT.lift (Host.present o)

/-! ### Printing readings -/

/-- Prints the readings after the first `done` ones, each after a wait. -/
def readings (source : Source m) (interval : Value) (count : Int) (done : Nat) :
    Nat → Sampler Value → ExceptT Fault m (Sampler Value)
  | 0, s => return s
  | left + 1, s => do
    Host.sleep interval
    let title := "Sample " ++ toString (done + 1) ++ "/" ++ DecimalDigit.intText count
    let (r, s) ← ExceptT.lift ((Collector.table source title).run.run s)
    display (.table (← MonadExcept.ofExcept r))
    readings source interval count (done + 1) left s

/-- The number of readings that an option asks for. -/
def countOf : Value → Except Fault Int
  | .int n => .ok n
  | _ => .error .wrongKind

/-- A load average with two places after the point. -/
def averageText (average : Value) : Except Fault String :=
  match average with
  | .text _ => .error .notNumber
  | v => do return FixedPoint.text 2 (← (← Number.ofValue v).toFloat)

/-- The line of load averages, if the first of them is available. -/
def averagesLine : List Value → Except Fault (Option String)
  | [] => .error .missingEntry
  | averages@(first :: _) => do
    if (← Number.ofValue first).isNonnegative then
      return some ("Load average: " ++ " ".intercalate (← averages.mapM averageText))
    else return none

/-- Prints what is known of the processor, some readings, and the load averages if they are available. -/
def sample (config : Value) (options : SampleOptions) : ExceptT Fault m Unit := do
  let known ← settings config
  let chosen := if options.source.truth then { known.sampler with source := options.source } else known.sampler
  let machine ← ExceptT.lift (Host.machine : m (Machine m))
  let (source, s) ← machine.sampler chosen
  let name ← MonadExcept.ofExcept s.identity.name.spelled
  display (.line (name ++ " (" ++ (← MonadExcept.ofExcept s.identity.identifier) ++ ")"))
  display (.line (source.name ++ " source, " ++ DecimalDigit.intText s.cores ++ " logical / " ++
    DecimalDigit.intText source.physical ++ " physical processors"))
  let count ← MonadExcept.ofExcept (countOf options.count)
  let s ← readings source options.interval count 0 count.toNat s
  let (r, _) ← ExceptT.lift ((Sampling.loadAverages source (.int 3)).run.run s)
  if let some line ← MonadExcept.ofExcept (do averagesLine (← r)) then display (.line line)

/-! ### Collecting samples -/

/-- What a run of collection changes as it goes on. -/
structure Run where
  sampler : Sampler Value
  journal : Option Journal := none
  gauges : Option Gauges := none

abbrev RunM (m : Type → Type) := ExceptT Fault (StateT Run m)

def collector (source : Source m) (perProcessor : Bool) : Collecting (StateT Run m) where
  name := "cpu"
  collect := do
    Fault.onPart (← get).sampler (fun s run => { run with sampler := s }) (Collector.collect source perProcessor)

def journalSink : Sink (StateT Run m) := fun batch => do
  match (← get).journal with
  | some j => Fault.onPart j (fun j run => { run with journal := some j }) (Journal.append batch)
  | none => return

def gaugesSink : Sink (StateT Run m) := fun batch => do
  match (← get).gauges with
  | some g => Fault.onPart g (fun g run => { run with gauges := some g }) (Gauges.publish batch)
  | none => return

/-- The sinks of a run, in the order in which they were set up. -/
def sinks (run : Run) : List (Sink (StateT Run m)) :=
  (if run.journal.isSome then [journalSink] else []) ++ (if run.gauges.isSome then [gaugesSink] else [])

def closeSinks : RunM m Unit := do
  if let some j := (← get).journal then Fault.onPart j (fun j run => { run with journal := some j }) Journal.close
  if let some g := (← get).gauges then Fault.onPart g (fun g run => { run with gauges := some g }) Gauges.close

def stop : Stop (StateT Run m) where
  isSet := StateT.lift Host.isStopped
  wait interval := ExceptT.mk (StateT.lift (Host.wait interval).run)

/-- Sets up the sinks that the settings ask for. -/
def setUp (known : Settings) (sampler : Sampler Value) : ExceptT Fault m Run := do
  let journal ← if known.journal.enabled.truth then some <$> Journal.start known.journal else pure none
  let gauges ← if known.mode.sameKey (.text "online") then some <$> Gauges.start known.gauges else pure none
  return { sampler, journal, gauges }

/-- Collects samples until told to stop, in at most `limit` rounds. -/
def collect (config : Value) (options : CollectOptions) (limit : Nat) : ExceptT Fault m Unit := do
  let known ← settings config
  let machine ← ExceptT.lift (Host.machine : m (Machine m))
  let (source, sampler) ← machine.sampler known.sampler
  let run ← setUp known sampler
  let interval := known.rounds.interval
  ExceptT.lift (Host.watch true : m Unit)
  let mode ← MonadExcept.ofExcept known.mode.spelled
  let pace ← MonadExcept.ofExcept interval.spelled
  display (.text ("tickload collector running (mode=" ++ mode ++ ", interval=" ++ pace ++
    "s)\nPress Ctrl+C to stop.\n\n"))
  let rounds : RunM m Rounds.Ending :=
    Rounds.run [collector source known.rounds.perProcessor.truth] (sinks run) stop interval
      options.iterations limit
  let (ending, run) ← ExceptT.lift (rounds.run.run run)
  let (closed, _) ← ExceptT.lift ((closeSinks (m := m)).run.run run)
  ExceptT.lift (Host.watch false : m Unit)
  let _ ← MonadExcept.ofExcept ending
  MonadExcept.ofExcept closed
  display (.text "\nCollection stopped.\n")

/-! ### Command lines -/

/-- How the program ends. -/
inductive Result
  | exit (status : Nat)
  | failed (fault : Fault)
  deriving Inhabited

/-- Carries out a command. -/
def perform (config : Value) (limit : Nat) : Command → ExceptT Fault m Unit
  | .sample options => sample config options
  | .collect options => collect config options limit
  | .version => display (.text ("tickload " ++ version ++ "\n"))

/-- Carries out a command line. -/
def run (args : List String) (limit : Nat) : m Result := do
  match Invocation.ofArguments args with
  | .error .usage => Host.present .usage; return .exit 2
  | .error .help => Host.present .help; return .exit 0
  | .ok i =>
    Host.report (if i.verbose then .debug else .info)
    match i.command with
    | none => Host.present .help; return .exit 1
    | some command =>
      match ← (perform i.config limit command).run with
      | .ok () => return .exit 0
      | .error (.setting cause) => Host.present (.complaint cause); return .exit 2
      | .error fault => return .failed fault

end Commands
end CpuLoad
