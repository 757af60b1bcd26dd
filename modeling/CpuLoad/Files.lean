import CpuLoad.Blank
import CpuLoad.Fault

/-!
What the program asks of a file system, and how the bytes of a file are read as text: as UTF-8, with every line end
written as a line feed.
-/
namespace CpuLoad

/-- A file system. -/
class Files (m : Type → Type) where
  read : String → m (Except FileFault ByteArray)
  isPresent : String → m (Except FileFault Bool)
  /-- Makes a directory with those above it, unless it is there. -/
  makeDirectory : String → m (Except FileFault Unit)
  openEnd : String → m (Except FileFault Unit)
  /-- Takes a text to the end of an open file, as far as it is passed on at once, and answers the rest. -/
  write : String → String → m String
  /-- Takes all of a text to the end of an open file. -/
  append : String → String → m Unit

namespace Files

variable {m : Type → Type} [Monad m] [Files m]

def request {α : Type} (x : m (Except FileFault α)) : ExceptT Fault m α :=
  ExceptT.mk do return (← x).mapError .file

def decode (bytes : ByteArray) : Except Fault String :=
  match String.fromUTF8? bytes with
  | some s => .ok (CodePoint.ofChars (Blank.plainNewlines s.toList))
  | none => .error .encoding

def readText (path : String) : ExceptT Fault m String := do
  MonadExcept.ofExcept (decode (← request (Files.read path)))

end Files

instance {m : Type → Type} [Monad m] [Files m] {σ : Type} : Files (StateT σ m) where
  read path := StateT.lift (Files.read path)
  isPresent path := StateT.lift (Files.isPresent path)
  makeDirectory path := StateT.lift (Files.makeDirectory path)
  openEnd path := StateT.lift (Files.openEnd path)
  write path text := StateT.lift (Files.write path text)
  append path text := StateT.lift (Files.append path text)

end CpuLoad
