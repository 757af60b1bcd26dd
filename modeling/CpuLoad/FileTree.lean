import CpuLoad.Files
import CpuLoad.Location
import CpuLoad.Rows

/-!
A file system as a value: the files and directories below a working directory, by the names that lead to them. The
working directory itself is always there. What cannot be done has the causes of a real file system.
-/
namespace CpuLoad

/-- A file's bytes, or a directory. -/
inductive FileNode
  | file (bytes : ByteArray)
  | directory
  deriving Inhabited

/-- Files and directories by the names that lead to them. -/
structure FileTree where
  nodes : List (List String × FileNode)
  deriving Inhabited

namespace FileTree

-- The empty sum is the core library's zero, whatever else is loaded.
attribute [local instance (high)] Zero.ofOfNat0

def empty : FileTree := ⟨[]⟩

def node? (t : FileTree) (names : List String) : Option FileNode :=
  if names = [] then some .directory else t.nodes.lookup names

/-- The tree with something at some names, in place of what stands there. -/
def put (names : List String) (node : FileNode) (t : FileTree) : FileTree := ⟨Rows.enter names node t.nodes⟩

theorem node?_put {names : List String} (h : names ≠ []) (node : FileNode) (t : FileTree) (other : List String) :
    (t.put names node).node? other = if other = names then some node else t.node? other := by
  by_cases root : other = []
  · simp [node?, root, Ne.symm h]
  · simp [node?, put, root, Rows.lookup_enter]

/-- The tree without what stands at some names or below them. -/
def remove (names : List String) (t : FileTree) : FileTree := ⟨t.nodes.filter fun (key, _) => !names.isPrefixOf key⟩

/-! ### Following names -/

/-- The most bytes that a name has. -/
def longestName : Nat := 255

/-- The most bytes that a whole path has. -/
def longestPath : Nat := 4095

def nameSize (name : String) : Except FileCause Nat :=
  match CodePoint.nameSize? name with
  | none => .error .unencodable
  | some size => if name.contains '\x00' then .error .badName else .ok size

/-- The number of bytes of a path through some names. -/
def pathSize (names : List String) : Except FileCause Nat := do
  return (← names.mapM nameSize).sum + (names.length - 1)

def isTooLong (name : String) : Bool :=
  match nameSize name with
  | .ok size => decide (longestName < size)
  | .error _ => false

/-- Where a name leads from a place. The name `..` leads one name back. -/
def step (place : List String) (name : String) : List String :=
  if name = ".." then place.dropLast else place ++ [name]

/-- The place to which names lead from another place, through directories only. -/
def follow (t : FileTree) (place : List String) : List String → Except FileCause (List String)
  | [] => .ok place
  | name :: rest =>
    match t.node? place with
    | some .directory => if isTooLong name then .error .tooLong else follow t (step place name) rest
    | some (.file _) => .error .notDirectory
    | none => .error .missing

/-- The place to which names lead from the working directory. -/
def placeOf (t : FileTree) (names : List String) : Except FileCause (List String) := do
  if longestPath < (← pathSize names) then throw .tooLong
  t.follow [] names

/-- What stands where names lead. -/
def find (t : FileTree) (names : List String) : Except FileCause (Option FileNode) := do
  return t.node? (← t.placeOf names)

/-! ### Operations -/

def read (t : FileTree) (names : List String) : Except FileCause ByteArray :=
  match t.find names with
  | .error cause => .error cause
  | .ok none => .error .missing
  | .ok (some .directory) => .error .isDirectory
  | .ok (some (.file bytes)) => .ok bytes

/-- Whether there is a file or directory. Only a name that is too long keeps this from being answered. -/
def isPresent (t : FileTree) (names : List String) : Except FileCause Bool :=
  match t.find names with
  | .ok node => .ok node.isSome
  | .error .tooLong => .error .tooLong
  | .error _ => .ok false

def isDirectory (t : FileTree) (names : List String) : Bool :=
  match t.find names with
  | .ok (some .directory) => true
  | _ => false

/-- The tree with one more directory. What stands there already is in the way. -/
def makeOne (t : FileTree) (names : List String) : Except FileCause FileTree := do
  let place ← t.placeOf names
  match t.node? place with
  | some _ => .error .occupied
  | none => .ok (t.put place .directory)

/-- Sees to it that names lead to a directory in a tree that has the one above it. -/
def ensureOne (t : FileTree) (names : List String) : Except FileCause Unit × FileTree :=
  match t.makeOne names with
  | .ok t => (.ok (), t)
  | .error cause => (if t.isDirectory names then .ok () else .error cause, t)

/-- Sees to it that names lead to a directory. If one above it is missing, those are made first, each one on its own; a
    fault keeps the ones made before it. -/
def makeDirectories (t : FileTree) (names : List String) : Except FileCause Unit × FileTree :=
  match t.makeOne names with
  | .error .missing =>
    if _h : names = [] then (.error .missing, t)
    else
      match t.makeDirectories names.dropLast with
      | (.ok (), t) => t.ensureOne names
      | (.error cause, t) => (.error cause, t)
  | _ => t.ensureOne names
termination_by names.length
decreasing_by
  have := List.length_pos_iff.2 _h
  simp
  omega

def openEnd (t : FileTree) (names : List String) : Except FileCause FileTree := do
  let place ← t.placeOf names
  match t.node? place with
  | some .directory => .error .isDirectory
  | some (.file _) => .ok t
  | none => .ok (t.put place (.file .empty))

def append (t : FileTree) (names : List String) (text : String) : FileTree :=
  match t.placeOf names with
  | .error _ => t
  | .ok place =>
    match t.node? place with
    | some (.file bytes) => t.put place (.file (bytes ++ text.toUTF8))
    | _ => t

def files (t : FileTree) : List (List String × ByteArray) :=
  t.nodes.filterMap fun (names, node) => match node with
    | .file bytes => some (names, bytes)
    | .directory => none

end FileTree
end CpuLoad
