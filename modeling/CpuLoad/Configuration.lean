import CpuLoad.Files
import CpuLoad.Location
import CpuLoad.Markup.Build
import CpuLoad.Overrides
import CpuLoad.Settings

/-!
The settings come from a document, if its file is there, under the overrides of the environment. A document that is no
table at its root says nothing.
-/
namespace CpuLoad.Configuration
open CpuLoad.Markup (Document Supply)
variable {m : Type → Type} [Monad m] [Files m]

/-- The file that is read if no other one is named. -/
def defaultPath : String := "tickload.yaml"

def pathOf (named : Value) : Except Fault String :=
  match named with
  | .null => .ok defaultPath
  | .text path => .ok (Location.normal path)
  | _ => .error .wrongKind

def documentOf (bytes : ByteArray) : Except Fault Document := do
  match ← Document.read (Supply.ofBytes bytes) with
  | some d => return if (d.rows? d.root).isSome then d else .empty
  | none => return .empty

/-- The document in a file, an empty one if there is no such file. -/
def document (path : String) : ExceptT Fault m Document := do
  if ← Files.request (Files.isPresent path) then
    MonadExcept.ofExcept (documentOf (← Files.request (Files.read path)))
  else return .empty

def override (o : Override) (value : Value) (d : Document) : Document :=
  match o.section with
  | none => d.put o.key value
  | some part => d.putIn part o.key value

def settingsOf (environment : String → Option String) (d : Document) : Except Fault Settings := do
  let d ← Override.applyEach override environment Override.all d
  (Settings.ofParts (d.find? d.root) d.findIn?).checked

def load (environment : String → Option String) (named : Value) : ExceptT Fault m Settings := do
  let path ← MonadExcept.ofExcept (pathOf named)
  MonadExcept.ofExcept (settingsOf environment (← document path))

end CpuLoad.Configuration
