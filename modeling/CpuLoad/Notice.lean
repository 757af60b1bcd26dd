import CpuLoad.FixedPoint
import CpuLoad.Reading

/-!
What the program reports while it runs, by event. Each notice has a level, the part of the program it comes from and a
wording. A report is made of them. What comes of a notice whose wording cannot show a value is up to the place where the
reports go.
-/
namespace CpuLoad

/-- The weight of a notice. -/
inductive Level
  | debug
  | info
  | warning
  | error
  deriving DecidableEq, Inhabited

def Level.name : Level → String
  | debug => "DEBUG"
  | info => "INFO"
  | warning => "WARNING"
  | error => "ERROR"

/-- What is reported. -/
inductive Notice
  /-- The first sample of a store was all zero. -/
  | seedRejected (store : String)
  /-- A store is asked for its samples at a clock reading. -/
  | asked (store : String) (now refreshed : Value)
  | sampleRejected (store : String)
  /-- A direct reading was not available, and the value stays. -/
  | directUnavailable (kept : Float)
  | directUsed (source : String)
  /-- The sampler works from ticks alone. -/
  | directUnused
  /-- A source has more or fewer rows than processors. -/
  | rowCount (found : Nat) (expected : Int)
  /-- A file could not be read. -/
  | unread (path reason : String)
  /-- A file could not be read, without a reason. -/
  | unreadSilently (path : String)
  /-- The platform knows no load averages. -/
  | averagesUnavailable
  | roundsStarted (interval : Value)
  | roundsStopped (rounds : Nat)
  | collectorFailed (name : String)
  | sinkFailed
  | journalOpened (directory : String)
  | journalClosed
  | gaugesOpened (endpoint : String) (service : Value)
  /-- Gauges are no longer published. -/
  | gaugesClosed
  deriving Inhabited

namespace Notice

def level : Notice → Level
  | rowCount .. => .warning
  | collectorFailed _ | sinkFailed => .error
  | roundsStarted _ | roundsStopped _ | journalOpened _ | journalClosed | gaugesOpened .. | gaugesClosed => .info
  | _ => .debug

/-- The part of the program that a notice comes from. -/
def origin : Notice → String
  | seedRejected _ | asked .. | sampleRejected _ => "tickload.state"
  | directUnavailable _ => "tickload.native"
  | directUsed _ | directUnused | rowCount .. => "tickload.processor"
  | unread .. | unreadSilently _ => "tickload.source.procfs"
  | averagesUnavailable => "tickload.source.psutil_source"
  | roundsStarted _ | roundsStopped _ | collectorFailed _ | sinkFailed => "tickload.collector.manager"
  | journalOpened _ | journalClosed => "tickload.exporter.local"
  | gaugesOpened .. | gaugesClosed => "tickload.exporter.otel"

/-- A number with some places after the point. -/
def fixed (places : Nat) (v : Value) : Except Fault String := do
  return FixedPoint.text places (← (← Number.ofValue v).toFloat)

/-- The wording of a notice. There is none if a value in it cannot be written as it has to be. -/
def text : Notice → Except Fault String
  | seedRejected store => .ok (store ++ ": initial sample is all zero, leaving state unseeded")
  | asked store now refreshed => do
    let now ← fixed 0 now
    return store ++ ": now=" ++ now ++ " last_refresh=" ++ (← refreshed.spelled)
  | sampleRejected store => .ok (store ++ ": discarding all-zero sample")
  | directUnavailable kept => .ok ("Native load reading unavailable, keeping " ++ FixedPoint.text 3 kept)
  | directUsed source => .ok ("Native CPU load detected on " ++ source ++ " source")
  | directUnused => .ok "Native CPU load not used; falling back to tick deltas"
  | rowCount found expected =>
    .ok ("Tick source returned " ++ toString found ++ " processor rows, expected " ++ DecimalDigit.intText expected)
  | unread path reason => .ok ("Failed to read " ++ path ++ ": " ++ reason)
  | unreadSilently path => .ok ("Failed to read " ++ path)
  | averagesUnavailable => .ok "Load average not available on this platform"
  | roundsStarted interval => do return "Collection started (interval=" ++ (← fixed 1 interval) ++ "s)"
  | roundsStopped rounds => .ok ("Collection stopped after " ++ toString rounds ++ " rounds")
  | collectorFailed name => .ok ("Collector " ++ name ++ " failed")
  | sinkFailed => .ok "Sink failed"
  | journalOpened directory => .ok ("LocalExporter writing to " ++ directory)
  | journalClosed => .ok "LocalExporter closed"
  | gaugesOpened endpoint service => do
    return "OtelExporter → " ++ endpoint ++ " (service=" ++ (← service.spelled) ++ ")"
  | gaugesClosed => .ok "OtelExporter shut down"

end Notice

/-- A notice as it is reported. -/
structure Report where
  level : Level
  origin : String
  text : String
  deriving Inhabited

/-- A place where reports go. -/
class Log (m : Type → Type) where
  record : Report → m Unit
  /-- What comes of a notice that has no wording: the place lets it go, or passes the fault on. -/
  spoilt : Fault → m (Except Fault Unit)

instance {m : Type → Type} [Monad m] [Log m] {σ : Type} : Log (StateT σ m) where
  record r := StateT.lift (Log.record r)
  spoilt e := StateT.lift (Log.spoilt e)

instance {m : Type → Type} [Monad m] [Log m] {ε : Type} : Log (ExceptT ε m) where
  record r := ExceptT.lift (Log.record r)
  spoilt e := ExceptT.lift (Log.spoilt e)

def note {m : Type → Type} [Monad m] [Log m] (n : Notice) : ExceptT Fault m Unit :=
  match n.text with
  | .ok text => ExceptT.lift (Log.record { level := n.level, origin := n.origin, text })
  | .error e => ExceptT.mk (Log.spoilt e)

end CpuLoad
