import CpuLoad.Arguments
import CpuLoad.Numeral
import CpuLoad.Value

/-!
What the program is told on its command line: a configuration file, whether to report details, and one of three
commands with options of its own. Every command also takes a request for help. An option that is left empty has the
empty list for its value.
-/
namespace CpuLoad
open CpuLoad.Arguments

/-- The options of printing readings. -/
structure SampleOptions where
  count : Value := .int 1
  interval : Value := .float 1.0
  source : Value := .null
  deriving Inhabited

/-- The options of collecting samples. -/
structure CollectOptions where
  iterations : Value := .null
  deriving Inhabited

/-- What the program is to do. -/
inductive Command
  | sample (options : SampleOptions)
  | collect (options : CollectOptions)
  | version
  deriving Inhabited

/-- What the program is told on its command line. -/
structure Invocation where
  config : Value := .null
  verbose : Bool := false
  command : Option Command := none
  deriving Inhabited

namespace Invocation

/-- The request for help, which every command takes. -/
def helpOption {σ : Type} : OptionSpec σ := ⟨["-h", "--help"], .help⟩

def valueOption {σ : Type} (names : List String) (read : String → Option Value) (put : Value → σ → σ) :
    OptionSpec σ :=
  ⟨names, .argument (fun text s => (read text).map fun v => put v s) (put (.list []))⟩

def readInt (text : String) : Option Value := (Numeral.int? text).map .int

/-- The double of an argument. -/
def readFloat (text : String) : Option Value := (Numeral.float? text).map .float

def readText (text : String) : Option Value := some (.text text)

def options : List (OptionSpec Invocation) := [
  helpOption,
  valueOption ["--config", "-c"] readText fun v i => { i with config := v },
  ⟨["--verbose", "-v"], .flag fun i => { i with verbose := true }⟩]

/-- The options of printing readings. -/
def sampleOptions : List (OptionSpec SampleOptions) := [
  helpOption,
  valueOption ["--count", "-n"] readInt fun v o => { o with count := v },
  valueOption ["--interval", "-i"] readFloat fun v o => { o with interval := v },
  valueOption ["--source"] readText fun v o => { o with source := v }]

def collectOptions : List (OptionSpec CollectOptions) := [
  helpOption,
  valueOption ["--iterations"] readInt fun v o => { o with iterations := v }]

def versionOptions : List (OptionSpec Unit) := [helpOption]

def isDigit (c : Char) : Bool := (DecimalDigit.value? c).isSome

def readOptions {σ : Type} (options : List (OptionSpec σ)) (make : σ → Command) (args : List String) (start : σ)
    (i : Invocation) : Except Refusal (Invocation × Bool) := do
  let (o, surplus) ← read isDigit options none args start
  return ({ i with command := some (make o) }, surplus)

def readCommand (name : String) (args : List String) (i : Invocation) : Except Refusal (Invocation × Bool) :=
  if name = "sample" then readOptions sampleOptions .sample args {} i
  else if name = "collect" then readOptions collectOptions .collect args {} i
  else if name = "version" then readOptions versionOptions (fun () => .version) args () i
  else .error .usage

/-- What a command line says. Nothing of it may be left over. -/
def ofArguments (args : List String) : Except Refusal Invocation := do
  let (i, surplus) ← read isDigit options (some readCommand) args {}
  if surplus then .error .usage else .ok i

end Invocation
end CpuLoad
