import CpuLoad.Notice
import CpuLoad.Sample
import CpuLoad.Settings

/-!
Samples published as gauges to a telemetry service. Each name has one gauge, made when the first sample of that name
comes; every sample then sets the gauge of its name under its labels. What the service is asked to do is data.
-/
namespace CpuLoad

/-- What the telemetry service is asked to do. -/
inductive GaugeCall
  | endpoint (url : String) (headers : Value)
  | reader (interval : Value)
  | provider (service : Value) (readers : Nat)
  | meter (name : String)
  | create (name unit description : Value)
  | set (name value labels : Value)
  | close
  deriving Inhabited

/-- A telemetry service. -/
class Telemetry (m : Type → Type) where
  call : GaugeCall → m Unit

instance {m : Type → Type} [Monad m] [Telemetry m] {σ : Type} : Telemetry (StateT σ m) :=
  ⟨fun c => StateT.lift (Telemetry.call c)⟩

instance {m : Type → Type} [Monad m] [Telemetry m] {ε : Type} : Telemetry (ExceptT ε m) :=
  ⟨fun c => ExceptT.lift (Telemetry.call c)⟩

/-- The names that have a gauge, each as it came first. -/
structure Gauges where
  names : List Value
  deriving Inhabited

namespace Gauges

/-- A text without the slashes it ends with. -/
def dropSlashes (s : String) : String := String.ofList (s.toList.reverse.dropWhile (· = '/')).reverse

/-- The address to which metrics are sent. -/
def metricsUrl (endpoint : String) : String := dropSlashes endpoint ++ "/v1/metrics"

/-! ### The gauges of a batch -/

def known? (name : Value) (g : Gauges) : Option Value := g.names.find? fun known => known.sameKey name

def step (s : Sample) (g : Gauges) : List GaugeCall × Gauges :=
  match g.known? s.name with
  | some name => ([.set name s.value s.labels], g)
  | none => ([.create s.name s.unit s.description, .set s.name s.value s.labels], ⟨g.names ++ [s.name]⟩)

def calls : List Sample → Gauges → List GaugeCall × Gauges
  | [], g => ([], g)
  | s :: rest, g =>
    let (own, g) := g.step s
    let (more, final) := calls rest g
    (own ++ more, final)

/-- Whether each sample of a batch can have a gauge: a list or a table cannot be looked up as a name. -/
def areNamed (batch : List Sample) : Bool := batch.all fun s => s.name.isKey

variable {m : Type → Type} [Monad m] [Log m] [Telemetry m]

/-- Makes calls in order. -/
def callEach : List GaugeCall → m Unit
  | [] => pure ()
  | c :: rest => do Telemetry.call c; callEach rest

def start (s : GaugeSettings) : ExceptT Fault m Gauges := do
  match s.endpoint with
  | .text endpoint =>
    let headers := if s.headers.truth then s.headers else .null
    callEach [.endpoint (metricsUrl endpoint) headers, .reader s.interval, .provider s.service 1,
      .meter "tickload.cpu"]
    note (.gaugesOpened endpoint s.service)
    return ⟨[]⟩
  | _ => throw .notText

/-- What runs against the gauges. -/
abbrev GaugesM (m : Type → Type) := ExceptT Fault (StateT Gauges m)

/-- Publishes a batch, up to the first sample whose name cannot be looked up. -/
def publish (batch : List Sample) : GaugesM m Unit := do
  let (calls, g) := (← get).calls (batch.takeWhile fun s => s.name.isKey)
  callEach calls
  set g
  if !areNamed batch then throw .wrongKind

/-- Ends the publishing of gauges. -/
def close : GaugesM m Unit := do
  Telemetry.call .close
  note .gaugesClosed

end Gauges
end CpuLoad
