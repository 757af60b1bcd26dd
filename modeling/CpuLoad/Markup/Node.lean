import CpuLoad.Markup.Tag
import CpuLoad.Markup.Token

/-!
The nodes that the tokens of a document spell: scalars, sequences and mappings, each with its tag. A node stands in a
list of nodes and goes by its place there, so that an alias is a place once more, also inside the node itself.
-/
namespace CpuLoad.Markup

/-- A node of a document. A collection names its members by their places. -/
inductive Node
  | scalar (tag : Tag) (text : String)
  | sequence (tag : Tag) (items : List Nat)
  | mapping (tag : Tag) (rows : List (Nat × Nat))
  deriving Inhabited

/-- The nodes of a document, and the place of the one at its root. -/
structure Graph where
  nodes : Array Node
  root : Nat
  deriving Inhabited

namespace Node

def tag : Node → Tag
  | scalar t _ => t
  | sequence t _ => t
  | mapping t _ => t

def withTag (t : Tag) : Node → Node
  | scalar _ text => scalar t text
  | sequence _ items => sequence t items
  | mapping _ rows => mapping t rows

/-! ### Reading tokens -/

/-- What is left of a document's tokens, the nodes so far and what has been named. -/
structure Reader where
  tokens : List Token
  handles : List (String × String)
  nodes : Array Node := #[]
  anchors : List (String × Nat) := []
  /-- The number of collections around this place. -/
  level : Nat := 0

abbrev ReadM := StateT Reader (Except Fault)

/-- The handles of tags that every document knows. -/
def commonHandles : List (String × String) := [("!", "!"), ("!!", Tag.common)]

/-- The next token. What goes wrong in the search for it is met here. -/
def look : ReadM (Option Token) := do
  match (← get).tokens.head? with
  | some (.fault cause) => throw cause
  | next => return next

/-- Passes over the next token. -/
def skip : ReadM Unit := modify fun r => { r with tokens := r.tokens.tail }

/-- Refuses the next token, which does not belong here. -/
def refuse {α : Type} : ReadM α := do
  let _ ← look
  throw malformed

/-- Whether a token begins or ends an entry of a block, so that nothing stands before it. -/
def endsBlockNode : Option Token → Bool
  | some .key | some .value | some .blockEnd => true
  | _ => false

def endsFlowNode : Option Token → Bool
  | some .value | some .flowEntry | some .flowSequenceEnd | some .flowMappingEnd => true
  | _ => false

/-! ### Nodes -/

/-- The place of a new node. -/
def add (n : Node) : ReadM Nat := do
  let place := (← get).nodes.size
  modify fun r => { r with nodes := r.nodes.push n }
  return place

def finishAt (place : Nat) (n : Node) : ReadM Unit := modify fun r => { r with nodes := r.nodes.setIfInBounds place n }

/-- The place of a node of nothing at all. -/
def absent : ReadM Nat := add (.scalar .null "")

/-- The greatest number of collections inside each other. -/
def deepest : Nat := 488

def inside {α : Type} (body : ReadM α) : ReadM α := do
  if deepest ≤ (← get).level then throw .tooDeep
  modify fun r => { r with level := r.level + 1 }
  let members ← body
  modify fun r => { r with level := r.level - 1 }
  return members

/-- What is said about a node before it: its anchor and its tag. -/
structure Properties where
  anchor : Option String := none
  tag : Option (Option String × String) := none

/-- The anchor and the tag here, in either order. -/
def properties : ReadM Properties := do
  match ← look with
  | some (.anchor a) =>
    skip
    match ← look with
    | some (.tag h s) => skip; return ⟨some a, some (h, s)⟩
    | _ => return ⟨some a, none⟩
  | some (.tag h s) =>
    skip
    match ← look with
    | some (.anchor a) => skip; return ⟨some a, some (h, s)⟩
    | _ => return ⟨none, some (h, s)⟩
  | _ => return {}

def tagName : Option String × String → ReadM String
  | (none, suffix) => return suffix
  | (some h, suffix) => do
    match (← get).handles.lookup h with
    | some meaning => return meaning ++ suffix
    | none => throw malformed

def collectionTag (common : Tag) : Option String → Tag
  | none => common
  | some "!" => common
  | some name => .ofName name

def scalarTag (plain : Bool) (text : String) : Option String → Tag
  | none => if plain then .ofPlain text else .text
  | some "!" => .ofPlain text
  | some name => .ofName name

def register (anchor : Option String) (place : Nat) : ReadM Unit := do
  match anchor with
  | none => return
  | some a =>
    if ((← get).anchors.lookup a).isSome then throw malformed
    modify fun r => { r with anchors := (a, place) :: r.anchors }

def scalarAt (anchor : Option String) (tag : Tag) (text : String) : ReadM Nat := do
  let place ← add (.scalar tag text)
  register anchor place
  return place

/-- A collection under an anchor, which is known inside the collection already. -/
def collectionAt {α : Type} (anchor : Option String) (build : List α → Node) (members : ReadM (List α)) :
    ReadM Nat := do
  let place ← add (build [])
  register anchor place
  finishAt place (build (← inside members))
  return place

mutual

/-- The place of the node here. A list may stand at the indentation of its key when `indentless`, and blocks only when
    `block`. -/
def node (block indentless : Bool) : Nat → ReadM Nat
  | 0 => refuse
  | fuel + 1 => do
    if let some (.alias a) := ← look then
      skip
      match (← get).anchors.lookup a with
      | some place => return place
      | none => throw malformed
    let p ← properties
    let name ← p.tag.mapM tagName
    let sequence (items : ReadM (List Nat)) : ReadM Nat :=
      collectionAt p.anchor (.sequence (collectionTag .sequence name)) items
    let mapping (rows : ReadM (List (Nat × Nat))) : ReadM Nat :=
      collectionAt p.anchor (.mapping (collectionTag .mapping name)) rows
    let nothing : ReadM Nat :=
      if p.anchor.isSome || p.tag.isSome then scalarAt p.anchor (scalarTag true "" name) "" else refuse
    match ← look with
    | some .entry => if indentless then sequence (indentlessItems fuel) else nothing
    | some (.scalar text plain) => skip; scalarAt p.anchor (scalarTag plain text name) text
    | some .flowSequence => skip; sequence (flowItems fuel true)
    | some .flowMapping => skip; mapping (flowRows fuel true)
    | some .blockSequence => if block then skip; sequence (blockItems fuel) else nothing
    | some .blockMapping => if block then skip; mapping (blockRows fuel) else nothing
    | _ => nothing

def blockItems : Nat → ReadM (List Nat)
  | 0 => refuse
  | fuel + 1 => do
    match ← look with
    | some .entry =>
      skip
      let first ← match ← look with
        | some .entry | some .blockEnd => absent
        | _ => node true false fuel
      return first :: (← blockItems fuel)
    | some .blockEnd => skip; return []
    | _ => refuse

def indentlessItems : Nat → ReadM (List Nat)
  | 0 => refuse
  | fuel + 1 => do
    match ← look with
    | some .entry =>
      skip
      let next ← look
      let first ← match next with
        | some .entry => absent
        | _ => if endsBlockNode next then absent else node true false fuel
      return first :: (← indentlessItems fuel)
    | _ => return []

/-- The place of a node of a row in a block, of nothing if the row goes on or ends at once. -/
def blockPart : Nat → ReadM Nat
  | 0 => refuse
  | fuel + 1 => do if endsBlockNode (← look) then absent else node true true fuel

def blockRows : Nat → ReadM (List (Nat × Nat))
  | 0 => refuse
  | fuel + 1 => do
    match ← look with
    | some .key =>
      skip
      let k ← blockPart fuel
      let v ← match ← look with
        | some .value => do skip; blockPart fuel
        | _ => absent
      return (k, v) :: (← blockRows fuel)
    | some .blockEnd => skip; return []
    | _ => refuse

/-- The place of a node of a row in brackets, of nothing if the row goes on or ends at once. -/
def flowPart : Nat → ReadM Nat
  | 0 => refuse
  | fuel + 1 => do if endsFlowNode (← look) then absent else node false false fuel

/-- The value behind a key in brackets, nothing if there is no colon. -/
def flowValue : Nat → ReadM Nat
  | 0 => refuse
  | fuel + 1 => do
    match ← look with
    | some .value => skip; flowPart fuel
    | _ => absent

/-- The items of a sequence in brackets. An item may be a row, which is a mapping of its own. -/
def flowItems : Nat → Bool → ReadM (List Nat)
  | 0, _ => refuse
  | fuel + 1, first => do
    if let some .flowSequenceEnd := ← look then skip; return []
    if !first then
      match ← look with
      | some .flowEntry => skip
      | _ => refuse
    match ← look with
    | some .key =>
      skip
      let item ← collectionAt none (.mapping .mapping) do
        let k ← flowPart fuel
        let v ← flowValue fuel
        return [(k, v)]
      return item :: (← flowItems fuel false)
    | some .flowSequenceEnd => skip; return []
    | _ =>
      let item ← node false false fuel
      return item :: (← flowItems fuel false)

/-- The rows of a mapping in brackets. -/
def flowRows : Nat → Bool → ReadM (List (Nat × Nat))
  | 0, _ => refuse
  | fuel + 1, first => do
    if let some .flowMappingEnd := ← look then skip; return []
    if !first then
      match ← look with
      | some .flowEntry => skip
      | _ => refuse
    match ← look with
    | some .key =>
      skip
      let k ← flowPart fuel
      let v ← flowValue fuel
      return (k, v) :: (← flowRows fuel false)
    | some .flowMappingEnd => skip; return []
    | _ =>
      let k ← node false false fuel
      let v ← absent
      return (k, v) :: (← flowRows fuel false)

end

/-! ### Documents -/

/-- The directives before a document; a version is given at most once and is one of the first. -/
def directives : List Token → Option Nat → List (String × String) → Except Fault (List (String × String) × List Token)
  | .version major :: rest, known, handles =>
    if known.isSome || major ≠ 1 then .error malformed else directives rest (some major) handles
  | .handle name meaning :: rest, known, handles =>
    if (handles.lookup name).isSome then .error malformed
    else directives rest known (handles ++ [(name, meaning)])
  | .directive :: rest, known, handles => directives rest known handles
  | .fault cause :: _, _, _ => .error cause
  | tokens, _, handles => .ok (handles ++ commonHandles, tokens)

/-- Whether some directive stands here. -/
def isDirective : Option Token → Bool
  | some (.version _) | some (.handle ..) | some .directive => true
  | _ => false

/-- Nothing may follow a document but markers of its end. -/
def finish (tokens : List Token) : Except Fault Unit :=
  match tokens.dropWhile fun t => t matches .documentEnd with
  | [] => .ok ()
  | rest => do
    let _ ← directives rest none []
    throw malformed

end Node

namespace Graph
open CpuLoad.Markup.Node

def ofTokens (tokens : List Token) : Except Fault (Option Graph) := do
  let fuel := 4 * tokens.length + 8
  match tokens with
  | [] => return none
  | first :: _ =>
    let (body, reader) ←
      if isDirective (some first) || first matches .documentStart then do
        let (handles, rest) ← directives tokens none []
        match rest with
        | .documentStart :: rest =>
          let content : ReadM Nat := do
            match ← look with
            | none | some .documentStart | some .documentEnd => absent
            | next => if isDirective next then absent else node true false fuel
          pure (content, ({ tokens := rest, handles } : Reader))
        | _ => throw malformed
      else pure (node true false fuel, ({ tokens, handles := commonHandles } : Reader))
    let (root, reader) ← body.run reader
    finish reader.tokens
    return some { nodes := reader.nodes, root }

end Graph
end CpuLoad.Markup
