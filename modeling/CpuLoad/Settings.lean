import CpuLoad.Reading

/-!
What the program can be told, by section, with its defaults. A setting may have a value of any shape until it is used:
only the mode and the two thresholds of the sampler are checked when a document is read, and a threshold becomes a
double then. A section that is no table counts as absent, and keys that are not known are passed over.
-/
namespace CpuLoad

/-- How the sampler works. -/
structure SamplerSettings where
  source : Value := .text "psutil"
  refreshThreshold : Value := .float 950.0
  directHold : Value := .float 200.0
  useDirect : Value := .bool true
  deriving Inhabited

/-- How gauges are published. -/
structure GaugeSettings where
  endpoint : Value := .text "http://localhost:4318"
  service : Value := .text "tickload"
  headers : Value := .table []
  interval : Value := .int 10000
  deriving Inhabited

/-- How the rounds of collection run. -/
structure RoundSettings where
  interval : Value := .float 1.0
  perProcessor : Value := .bool true
  deriving Inhabited

/-- Where and whether a journal is written. -/
structure JournalSettings where
  enabled : Value := .bool true
  directory : Value := .text "./tickload_data"
  format : Value := .text "jsonl"
  deriving Inhabited

/-- All settings. -/
structure Settings where
  mode : Value := .text "local"
  sampler : SamplerSettings := {}
  rounds : RoundSettings := {}
  journal : JournalSettings := {}
  gauges : GaugeSettings := {}
  deriving Inhabited

/-! ### Sections -/

/-- The values of a section by their keys. -/
abbrev Part := String → Option Value

namespace Part

/-- The section of a value: that of a table's rows, and one without keys if it is no table. -/
def ofValue : Option Value → Part
  | some (.table rows) => fun key => Value.lookup key rows
  | _ => fun _ => none

def get (part : Part) (key : String) (known : Value) : Value := (part key).getD known

end Part

namespace SamplerSettings

def sourceKey : String := "source"
/-- The key of the age beyond which a sample is replaced. -/
def thresholdKey : String := "refresh_threshold_ms"
/-- The key of the time for which a direct reading is held. -/
def holdKey : String := "native_debounce_ms"
def useDirectKey : String := "use_native"

def ofPart (part : Part) : SamplerSettings :=
  let d : SamplerSettings := {}
  { source := part.get sourceKey d.source
    refreshThreshold := part.get thresholdKey d.refreshThreshold
    directHold := part.get holdKey d.directHold
    useDirect := part.get useDirectKey d.useDirect }

/-- The double of a threshold, which is not zero or less. A threshold that is not a number is not zero or less. -/
def threshold (key : String) (v : Value) : Except Fault Float :=
  match v.toFloat with
  | .ok x => if x ≤ 0.0 then .error (.setting (.thresholdSign key)) else .ok x
  | .error .tooLarge => .error .tooLarge
  | .error _ => .error (.ofSetting (.threshold key v))

/-- Checks the two thresholds in turn and leaves each one that passes as a double. -/
def check (s : SamplerSettings) : Except Fault Unit × SamplerSettings :=
  match threshold thresholdKey s.refreshThreshold with
  | .error e => (.error e, s)
  | .ok x =>
    let s := { s with refreshThreshold := .float x }
    match threshold holdKey s.directHold with
    | .error e => (.error e, s)
    | .ok y => (.ok (), { s with directHold := .float y })

def checked (s : SamplerSettings) : Except Fault SamplerSettings :=
  let (outcome, s) := s.check
  outcome.map fun () => s

end SamplerSettings

def GaugeSettings.ofPart (part : Part) : GaugeSettings :=
  let d : GaugeSettings := {}
  { endpoint := part.get "endpoint" d.endpoint
    service := part.get "service_name" d.service
    headers := part.get "headers" d.headers
    interval := part.get "export_interval_ms" d.interval }

def RoundSettings.ofPart (part : Part) : RoundSettings :=
  let d : RoundSettings := {}
  { interval := part.get "interval_seconds" d.interval
    perProcessor := part.get "per_core" d.perProcessor }

def JournalSettings.ofPart (part : Part) : JournalSettings :=
  let d : JournalSettings := {}
  { enabled := part.get "enabled" d.enabled
    directory := part.get "output_dir" d.directory
    format := part.get "format" d.format }

namespace Settings

/-- The settings of a root and of the sections under its keys, before anything is checked. -/
def ofParts (root : Part) (part : String → Part) : Settings :=
  let d : Settings := {}
  { mode := root.get "mode" d.mode
    sampler := .ofPart (part "sampler")
    rounds := .ofPart (part "collector")
    journal := .ofPart (part "local_exporter")
    gauges := .ofPart (part "otel") }

def ofRows (rows : List (Value × Value)) : Settings :=
  let root : Part := fun key => Value.lookup key rows
  ofParts root fun key => Part.ofValue (root key)

def isMode (v : Value) : Bool := v.sameKey (.text "local") || v.sameKey (.text "online")

def checked (s : Settings) : Except Fault Settings := do
  if !isMode s.mode then throw (.ofSetting (.mode s.mode))
  return { s with sampler := ← s.sampler.checked }

def ofDocument (rows : List (Value × Value)) : Except Fault Settings := (ofRows rows).checked

end Settings
end CpuLoad
