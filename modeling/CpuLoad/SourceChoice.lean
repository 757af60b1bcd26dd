import CpuLoad.Sampling
import CpuLoad.Settings
import CpuLoad.TimesSource

/-!
The sources by the name they have in the settings, the machine they run on, and a sampler set up as the settings say.
-/
namespace CpuLoad

/-- The kinds of source. -/
inductive SourceKind
  | proc
  | times
  deriving DecidableEq, Inhabited

namespace SourceKind

/-- All kinds, in the order of their names. -/
def all : List SourceKind := [proc, times]

def name : SourceKind → String
  | proc => "procfs"
  | times => "psutil"

/-- The kind of the given name. A list or a table cannot be looked up. -/
def ofSetting (v : Value) : Except Fault SourceKind :=
  if !v.isKey then .error .wrongKind
  else match all.find? fun k => v.sameKey (.text k.name) with
    | some k => .ok k
    | none => .error (.ofSetting (.source v (all.map name)))

end SourceKind

/-- What the sources find on a machine. -/
structure Machine (m : Type → Type) where
  /-- The machine's name, such as `x86_64`. -/
  hardware : String
  /-- The processor's name as the platform knows it, often empty. -/
  processor : String
  /-- The number of processors, if known. -/
  processors : Option Int
  /-- Where the process file system begins. -/
  procRoot : String
  /-- Where the descriptions of devices begin. -/
  deviceRoot : String
  times : TimesPlatform m

namespace Machine
variable {m : Type → Type} [Monad m] [Files m] [Log m] [Clock m]

def platformIdentity (machine : Machine m) : Identity := .ofPlatform machine.hardware machine.processor

def source (machine : Machine m) : SourceKind → Source m
  | .proc => ProcSource.source machine.procRoot machine.deviceRoot machine.processors machine.platformIdentity
  | .times => TimesSource.source machine.times (machine.procRoot ++ "/cpuinfo")
      (ProcSource.serialFile machine.deviceRoot) machine.platformIdentity

def sampler (machine : Machine m) (settings : SamplerSettings) : ExceptT Fault m (Source m × Sampler Value) := do
  let settings ← MonadExcept.ofExcept settings.checked
  let source := machine.source (← MonadExcept.ofExcept (SourceKind.ofSetting settings.source))
  return (source, ← Sampling.start source settings.refreshThreshold settings.directHold settings.useDirect.truth)

end Machine
end CpuLoad
