import CpuLoad.Markup.Document
import CpuLoad.Markup.Node
import CpuLoad.Markup.Scalar
import CpuLoad.Markup.Supply
import CpuLoad.Rows

/-!
The document that the nodes of a text mean. Each node has one value, wherever it stands. Collections are filled in the
order in which they are first met, each one after all that were met before it, so that a collection may stand inside
itself, and the first fault in that order is the one that counts. Tables merged into another one stand before its own
rows, those of a list of tables in reverse order, and of two rows with one key the later value counts at the place of
the first.
-/
namespace CpuLoad.Markup.Build
open CpuLoad.Markup

/-- A key with what tells apart those that are not a number: zero for the one that goes by name, or the node's place. -/
structure Key where
  value : Value
  origin : Nat

/-- Whether a value is a double that is not a number. -/
def isNan : Value → Bool
  | .float x => x.isNaN
  | _ => false

instance : BEq Key :=
  ⟨fun k l => k.value.sameKey l.value || (isNan k.value && isNan l.value && k.origin == l.origin)⟩

/-- How far a document has been made. -/
structure Progress where
  nodes : Array Node
  /-- What stands for each node whose value is known. -/
  known : Array (Option Entry)
  /-- The collections, by the places of their nodes. -/
  collections : Array Collection
  /-- The nodes of the collections in the order in which they were met. -/
  met : Array Nat := #[]
  /-- The number of rows that merge others in. -/
  merging : Nat

/-- What makes a document. -/
abbrev BuildM := StateT Progress (Except Fault)

def nodeAt (place : Nat) : BuildM Node := do return (← get).nodes.getD place default

def putNode (place : Nat) (n : Node) : BuildM Unit :=
  modify fun p => { p with nodes := p.nodes.setIfInBounds place n }

/-! ### Entries -/

/-- The text of a node that stands for a scalar. A mapping stands for the value under its value key; one that comes back
    to itself that way has no end. -/
def textOf : Nat → Nat → BuildM String
  | 0, _ => throw .tooDeep
  | fuel + 1, place => do
    match ← nodeAt place with
    | .scalar _ text => return text
    | .sequence .. => throw malformed
    | .mapping _ rows =>
      let nodes := (← get).nodes
      match rows.find? fun row => (nodes.getD row.1 default).tag = .value with
      | some (_, v) => textOf fuel v
      | none => throw malformed

def emptyOf : Tag → Option Collection
  | .sequence => some (.list [])
  | .pairs => some (.pairs [])
  | .mapping => some (.table [])
  | .set => some (.set [])
  | _ => none

/-- The value of a node that is no collection. -/
def leafOf (place : Nat) (tag : Tag) : BuildM Value := do
  if tag matches .merge | .value | .other _ then throw malformed
  let text ← textOf ((← get).nodes.size + 1) place
  if tag = .timestamp then
    if let .mapping .. := ← nodeAt place then throw .wrongKind
  MonadExcept.ofExcept (Scalar.valueOf tag text)

/-- What stands for a node. A collection is met here and filled later. -/
def entryOf (place : Nat) : BuildM Entry := do
  match (← get).known.getD place none with
  | some entry => return entry
  | none =>
    let tag := (← nodeAt place).tag
    let entry ← match emptyOf tag with
      | some start =>
        modify fun p => { p with
          collections := p.collections.setIfInBounds place start
          met := p.met.push place }
        pure (Entry.inner place)
      | none => Entry.leaf <$> leafOf place tag
    modify fun p => { p with known := p.known.setIfInBounds place (some entry) }
    return entry

/-- The key that a node stands for. -/
def keyOf (place : Nat) : BuildM Key := do
  match ← entryOf place with
  | .inner _ => throw malformed
  | .leaf value =>
    match ← nodeAt place with
    | .scalar _ text => return ⟨value, if Scalar.namesNan text then 0 else place + 1⟩
    | _ => return ⟨value, place + 1⟩

/-! ### Merging -/

def rowsAt (place : Nat) : BuildM (List (Nat × Nat)) := do
  match ← nodeAt place with
  | .mapping _ rows => return rows
  | _ => return []

def putRows (place : Nat) (rows : List (Nat × Nat)) : BuildM Unit := do
  match ← nodeAt place with
  | .mapping tag _ => putNode place (.mapping tag rows)
  | _ => return

/-- Puts rows before those of the mapping at a place, and gives all of them. -/
def prepend (place : Nat) (merged : List (Nat × Nat)) : BuildM (List (Nat × Nat)) := do
  let rows := merged ++ (← rowsAt place)
  putRows place rows
  return rows

def mergingRows (nodes : Array Node) : Nat :=
  nodes.foldl (fun count n =>
    match n with
    | .mapping _ rows => count + rows.countP fun row => (nodes.getD row.1 default).tag = .merge
    | _ => count) 0

/-- The rows that are merged into the mapping at a place. Each merging row is taken out of its mapping before what it
    merges in is looked at, which is merged into first, so that `fuel` counts such rows. Value keys become texts. -/
def mergedInto (place : Nat) : Nat → BuildM (List (Nat × Nat))
  | 0 => throw .tooDeep
  | fuel + 1 => do
    let rows ← rowsAt place
    let nodes := (← get).nodes
    let tagOf (row : Nat × Nat) : Tag := (nodes.getD row.1 default).tag
    for row in rows do
      if tagOf row = .value then putNode row.1 ((nodes.getD row.1 default).withTag .text)
    match rows.find? fun row => tagOf row = .merge with
    | none => return []
    | some row =>
      putRows place (rows.eraseP fun row => tagOf row = .merge)
      let whole (inner : Nat) : BuildM (List (Nat × Nat)) := do
        match ← nodeAt inner with
        | .mapping .. => prepend inner (← mergedInto inner fuel)
        | _ => throw malformed
      let here ← match ← nodeAt row.2 with
        | .sequence _ items => (fun parts => parts.reverse.flatten) <$> items.mapM whole
        | _ => whole row.2
      return here ++ (← mergedInto place fuel)

/-! ### Filling -/

/-- The rows of a table, each key at its first place with its last value. -/
def tableOf (table : List (Key × Entry)) : List (Nat × Nat) → BuildM (List (Key × Entry))
  | [] => return table
  | (k, v) :: rest => do
    let key ← keyOf k
    let value ← entryOf v
    tableOf (Rows.enter key value table) rest

/-- The rows of the mapping at a place, with those merged into it. -/
def mappingAt (place : Nat) : BuildM (List (Key × Entry)) := do
  if let .mapping .. := ← nodeAt place then
    tableOf [] (← prepend place (← mergedInto place ((← get).merging + 1)))
  else throw malformed

def itemsAt (place : Nat) : BuildM (List Nat) := do
  match ← nodeAt place with
  | .sequence _ items => return items
  | _ => throw malformed

/-- The pair that a mapping with one row stands for. -/
def pairAt (place : Nat) : BuildM (Entry × Entry) := do
  match ← rowsAt place with
  | [(k, v)] => return (← entryOf k, ← entryOf v)
  | _ => throw malformed

def membersAt (place : Nat) : BuildM Collection := do
  match (← nodeAt place).tag with
  | .sequence => return .list (← (← itemsAt place).mapM entryOf)
  | .pairs => return .pairs (← (← itemsAt place).mapM pairAt)
  | .mapping => return .table ((← mappingAt place).map fun (k, v) => (k.value, v))
  | _ => return .set ((← mappingAt place).map fun (k, _) => k.value)

/-- Fills the collections from the one met as number `n` on, at most `fuel` of them. -/
def fillFrom (n : Nat) : Nat → BuildM Unit
  | 0 => return
  | fuel + 1 => do
    match (← get).met[n]? with
    | none => return
    | some place =>
      let members ← membersAt place
      modify fun p => { p with collections := p.collections.setIfInBounds place members }
      fillFrom (n + 1) fuel

end Build

/-- The document that some nodes mean. -/
def Document.ofGraph (g : Graph) : Except Fault Document := do
  let count := g.nodes.size
  let make : Build.BuildM Entry := do
    let root ← Build.entryOf g.root
    Build.fillFrom 0 count
    return root
  let (root, p) ← make.run
    { nodes := g.nodes, known := Array.replicate count none, collections := Array.replicate count (.list [])
      merging := Build.mergingRows g.nodes }
  return { root, collections := p.collections }

def Document.read (supply : Supply) : Except Fault (Option Document) := do
  match ← Graph.ofTokens (Token.scan supply.text supply.ending) with
  | none => return none
  | some g => return some (← Document.ofGraph g)

end CpuLoad.Markup
