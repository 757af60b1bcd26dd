import CpuLoad.Value

/-!
A document: values without parts, and collections that may stand at several places, also inside themselves. A change to
a collection shows at all its places. The value of an entry is written out from there on; where a collection comes back
inside itself the value only says so.
-/
namespace CpuLoad.Markup

/-- What stands at a place of a document: a value without parts, or a collection by its number. -/
inductive Entry
  | leaf (v : Value)
  | inner (number : Nat)
  deriving Inhabited

/-- A collection of a document. -/
inductive Collection
  | list (items : List Entry)
  | pairs (rows : List (Entry × Entry))
  | table (rows : List (Value × Entry))
  | set (items : List Value)
  deriving Inhabited

/-- A document: what stands at its root, and its collections. -/
structure Document where
  root : Entry
  collections : Array Collection
  deriving Inhabited

namespace Document

/-! ### Values -/

/-- The values of collections that do not come back inside themselves, as far as they are written out. -/
abbrev Written := Array (Option Value)

def isTable : Collection → Bool
  | .table _ => true
  | _ => false

/-- The value of an entry, inside some collections, and whether one of them comes back in it. -/
def write (d : Document) : Nat → List Nat → Entry → StateM Written (Value × Bool)
  | _, _, .leaf v => return (v, false)
  | 0, _, .inner _ => return (.again false, true)
  | fuel + 1, around, .inner number => do
    let collection := d.collections.getD number default
    if around.contains number then return (.again (isTable collection), true)
    if let some v := (← get).getD number none then return (v, false)
    let around := number :: around
    let (v, comesBack) ← match collection with
      | .list items => do
        let written ← items.mapM (write d fuel around)
        pure (Value.list (written.map (·.1)), written.any (·.2))
      | .pairs rows => do
        let written ← rows.mapM fun (a, b) => do
          let (v, p) ← write d fuel around a
          let (w, q) ← write d fuel around b
          pure (Value.pair v w, p || q)
        pure (Value.list (written.map (·.1)), written.any (·.2))
      | .table rows => do
        let written ← rows.mapM fun (key, entry) => do
          let (v, p) ← write d fuel around entry
          pure ((key, v), p)
        pure (Value.table (written.map (·.1)), written.any (·.2))
      | .set items => pure (Value.set items, false)
    if !comesBack then modify fun known => known.setIfInBounds number (some v)
    return (v, comesBack)

def value (d : Document) (entry : Entry) : Value :=
  let count := d.collections.size
  ((write d (count + 1) [] entry).run (Array.replicate count none)).1.1

/-! ### Rows -/

def empty : Document := ⟨.inner 0, #[.table []]⟩

def rows? (d : Document) : Entry → Option (List (Value × Entry))
  | .leaf _ => none
  | .inner number =>
    match d.collections[number]? with
    | some (.table rows) => some rows
    | _ => none

def entryAt (key : String) (rows : List (Value × Entry)) : Option Entry :=
  (rows.find? fun row => row.1.sameKey (.text key)).map (·.2)

def find? (d : Document) (table : Entry) (key : String) : Option Value := do
  return d.value (← entryAt key (← d.rows? table))

/-- The value at a text key of the table under another one at the root. -/
def findIn? (d : Document) (part key : String) : Option Value := do
  d.find? (← entryAt part (← d.rows? d.root)) key

/-- Rows with an entry at a text key: in place of the one it has, or else at the end. -/
def enter (key : String) (entry : Entry) : List (Value × Entry) → List (Value × Entry)
  | [] => [(.text key, entry)]
  | (k, e) :: rows => if k.sameKey (.text key) then (k, entry) :: rows else (k, e) :: enter key entry rows

def putAt (d : Document) (table : Entry) (key : String) (entry : Entry) : Document :=
  match table, d.rows? table with
  | .inner number, some rows =>
    { d with collections := d.collections.setIfInBounds number (.table (enter key entry rows)) }
  | _, _ => d

def put (key : String) (v : Value) (d : Document) : Document := d.putAt d.root key (.leaf v)

/-- The document with a value at a text key of the table under another one at the root. That table is made if there is
    none. -/
def putIn (part key : String) (v : Value) (d : Document) : Document :=
  match (d.rows? d.root).bind (entryAt part) with
  | some table =>
    if (d.rows? table).isSome then d.putAt table key (.leaf v) else made d
  | none => made d
where
  /-- The document with a new table for the value. -/
  made (d : Document) : Document :=
    let table := Entry.inner d.collections.size
    { d with collections := d.collections.push (.table [(.text key, .leaf v)]) }.putAt d.root part table

end Document
end CpuLoad.Markup
