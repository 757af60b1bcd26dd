import CpuLoad.Markup.ScalarText

/-!
The marks and scalars that a document is made of. Indentation opens and closes blocks, so the tokens say where a block
begins and ends. Only the colon behind a key shows that it is one: where a key may begin an entry is left open, and
filled with the mark of a key when the colon comes on the same line and near enough.
-/
namespace CpuLoad.Markup

/-- A mark or a scalar. -/
inductive Token
  | documentStart
  | documentEnd
  /-- The version that a document says it is written for. -/
  | version (major : Nat)
  /-- A handle for tags and what it stands for. -/
  | handle (name meaning : String)
  | directive
  | blockSequence
  | blockMapping
  | blockEnd
  | flowSequence
  | flowSequenceEnd
  | flowMapping
  | flowMappingEnd
  | flowEntry
  | entry
  | key
  | value
  | alias (name : String)
  | anchor (name : String)
  | tag (handle : Option String) (suffix : String)
  | scalar (text : String) (plain : Bool)
  /-- What goes wrong at this point of the document. -/
  | fault (cause : Fault)
  deriving Inhabited

namespace Token

/-! ### Names and tags -/

/-- A name of letters, digits, hyphens and underscores. -/
def name (c : Cursor) : Except Stop (String × Cursor) :=
  match c.takeWhile isNameChar with
  | ([], c) => c.refuse
  | (cs, c) => .ok (String.ofList cs, c)

def anchorName (c : Cursor) : Except Stop (String × Cursor) := do
  let (text, c) ← name c.next
  let ends := endsToken c.peek || (c.peek.map fun ch => "?:,]\x7d%@`".contains ch).getD false
  if ends then return (text, c) else c.refuse

def isAddressChar (c : Char) : Bool := c.isAlphanum || "-;/?:@&=+$,_.!~*'()[]".contains c

/-- The bytes of a run of escapes, each a percent sign and two hexadecimal digits, and the place behind them. -/
def escapedBytes : Nat → Cursor → Except Stop (List UInt8 × Cursor)
  | 0, c => .ok ([], c)
  | fuel + 1, c =>
    if c.has '%' then
      let c := c.next
      let digits := c.rest.take 2
      match (if digits.length = 2 then ScalarText.hexNumber? digits else none) with
      | some n => do
        let (bytes, c) ← escapedBytes fuel (c.move 2)
        return (UInt8.ofNat n :: bytes, c)
      | none => (ScalarText.firstNoDigit 2 c).refuse
    else .ok ([], c)

/-- The text of an address up to the first character that is none of it. -/
def addressFrom : Nat → Cursor → Except Stop (List Char × Cursor)
  | 0, c => .ok ([], c)
  | fuel + 1, c => do
    let (plain, c) := c.takeWhile isAddressChar
    if c.has '%' then
      let (bytes, c) ← escapedBytes (c.rest.length + 1) c
      match String.fromUTF8? (.mk bytes.toArray) with
      | none => throw ⟨malformed, false⟩
      | some text =>
        let (more, c) ← addressFrom fuel c
        return (plain ++ text.toList ++ more, c)
    else return (plain, c)

def address (c : Cursor) : Except Stop (String × Cursor) := do
  let (text, after) ← addressFrom (c.rest.length + 1) c
  if after.index = c.index then c.refuse else return (CodePoint.ofChars text, after)

/-- A handle of tags: an exclamation mark, alone or with a name and another one behind it. -/
def tagHandle (c : Cursor) : Except Stop (String × Cursor) :=
  if !c.has '!' then c.refuse
  else if c.peek 1 = some ' ' then .ok ("!", c.next)
  else
    let (cs, after) := c.next.takeWhile isNameChar
    if after.has '!' then .ok (String.ofList ('!' :: cs ++ ['!']), after.next) else after.refuse

def tagAt (c : Cursor) : Except Stop (Token × Cursor) := do
  let (token, c) ← match c.peek 1 with
    | some '<' => do
      let (suffix, c) ← address (c.move 2)
      if c.has '>' then pure (Token.tag none suffix, c.next) else c.refuse
    | next =>
      if endsToken next then pure (Token.tag none "!", c.next)
      else do
        let ahead := c.next.rest.takeWhile fun ch => !(ch = ' ' || isBreak ch)
        let (sign, c) ← if ahead.contains '!' then tagHandle c else pure ("!", c.next)
        let (suffix, c) ← address c
        pure (Token.tag (some sign) suffix, c)
  if endsWord c.peek then return (token, c) else c.refuse

/-! ### Directives -/

/-- A number of a version. One of too many digits is not read. -/
def versionNumber (c : Cursor) : Except Stop (Nat × Cursor) :=
  match c.takeWhile Char.isDigit with
  | ([], c) => c.refuse
  | (cs, c) =>
    if DecimalDigit.maxDigits < cs.length then .error ⟨.notNumber, false⟩
    else .ok (cs.foldl (fun n ch => 10 * n + (ch.toNat - '0'.toNat)) 0, c)

/-- A directive, from its percent sign on. -/
def directiveAt (c : Cursor) : Except Stop (Token × Cursor) := do
  let (kind, c) ← name c.next
  if !endsWord c.peek then c.refuse
  let (token, c) ← if kind = "YAML" then do
      let (major, c) ← versionNumber c.skipSpaces
      if !c.has '.' then c.refuse
      let (_, c) ← versionNumber c.next
      if !endsWord c.peek then c.refuse
      pure (Token.version major, c)
    else if kind = "TAG" then do
      let (sign, c) ← tagHandle c.skipSpaces
      if !c.has ' ' then c.refuse
      let (meaning, c) ← address c.skipSpaces
      if !endsWord c.peek then c.refuse
      pure (Token.handle sign meaning, c)
    else pure (Token.directive, c.skipWhile (!isBreak ·))
  match c.endOfLine with
  | some c => return (token, c)
  | none => c.refuse

end Token

/-! ### Scanning -/

/-- A place where a key may have begun: the tokens' slot left open for it, and where it stands. -/
structure KeyPlace where
  slot : Nat
  /-- Nothing else can begin there, so a colon has to come. -/
  required : Bool
  index : Nat
  line : Nat
  column : Nat

/-- How far a document has been scanned. -/
structure Scan where
  cursor : Cursor
  /-- The number of brackets that are open. -/
  depth : Nat := 0
  /-- The indentation of the innermost block, below zero outside all blocks. -/
  indent : Int := -1
  /-- The indentations of the blocks around it. -/
  outer : List Int := []
  /-- Whether a key may begin here. -/
  keyAllowed : Bool := true
  /-- The places where keys may have begun, by the number of open brackets. -/
  places : List (Nat × KeyPlace) := []
  slots : Array (List Token) := #[]

namespace Scan

def push (s : Scan) (tokens : List Token) : Scan := { s with slots := s.slots.push tokens }

/-- The scan at another place, with one more token. -/
def emit (s : Scan) (token : Token) (c : Cursor) : Scan := { s.push [token] with cursor := c }

/-- Forgets the place of a key among the open brackets. It is a fault if a colon had to come. -/
def dropPlace (s : Scan) : Except Stop Scan :=
  match s.places.lookup s.depth with
  | some place =>
    if place.required then s.cursor.refuse
    else .ok { s with places := s.places.filter fun p => p.1 != s.depth }
  | none => .ok s

/-- Leaves a slot open for a key that may begin here. -/
def openPlace (s : Scan) : Except Stop Scan := do
  if s.keyAllowed then
    let required := s.depth = 0 && s.indent = Int.ofNat s.cursor.column
    let s ← s.dropPlace
    let place : KeyPlace := ⟨s.slots.size, required, s.cursor.index, s.cursor.line, s.cursor.column⟩
    return { s.push [] with places := (s.depth, place) :: s.places }
  else return s

/-- Forgets the places from which a colon is too far: on another line, or more than 1024 characters away. -/
def dropStale (s : Scan) : Except Stop Scan :=
  let isStale (p : KeyPlace) : Bool := p.line != s.cursor.line || 1024 < s.cursor.index - p.index
  if s.places.any fun p => isStale p.2 && p.2.required then s.cursor.refuse
  else .ok { s with places := s.places.filter fun p => !isStale p.2 }

def closeBlocks (column indent : Int) : List Int → Int × List Int × List Token
  | [] => (indent, [], [])
  | around :: outer =>
    if column < indent then
      let (indent, outer, ends) := closeBlocks column around outer
      (indent, outer, .blockEnd :: ends)
    else (indent, around :: outer, [])

/-- Closes the blocks that are indented more than a column. Between brackets indentation means nothing. -/
def unwind (s : Scan) (column : Int) : Scan :=
  if s.depth ≠ 0 then s
  else
    let (indent, outer, ends) := closeBlocks column s.indent s.outer
    { s.push ends with indent, outer }

def opensBlock (s : Scan) (column : Nat) : Bool := decide (s.indent < Int.ofNat column)

def openBlock (s : Scan) (column : Nat) : Scan := { s with indent := column, outer := s.indent :: s.outer }

/-- The place of the next token: behind spaces, comments and line breaks, after which a key may begin. -/
def skipToToken : Nat → Scan → Scan
  | 0, s => s
  | fuel + 1, s =>
    let c := s.cursor.skipSpaces
    let c := if c.has '#' then c.skipWhile (!isBreak ·) else c
    match c.lineBreak with
    | ([], _) => { s with cursor := c }
    | (_, c) => skipToToken fuel { s with cursor := c, keyAllowed := if s.depth = 0 then true else s.keyAllowed }

/-! ### Marks -/

/-- A directive or a marker between documents ends all blocks. -/
def boundary (s : Scan) (token : Token) (c : Cursor) : Except Stop Scan := do
  let s ← (s.unwind (-1)).dropPlace
  return { s.emit token c with keyAllowed := false }

def bracket (s : Scan) (token : Token) : Except Stop Scan := do
  let s ← s.openPlace
  return { s.emit token s.cursor.next with depth := s.depth + 1, keyAllowed := true }

def bracketEnd (s : Scan) (token : Token) : Except Stop Scan := do
  let s ← s.dropPlace
  return { s.emit token s.cursor.next with depth := s.depth - 1, keyAllowed := false }

/-- The comma between entries in brackets. -/
def flowEntry (s : Scan) : Except Stop Scan := do
  let s ← s.dropPlace
  return { s.emit .flowEntry s.cursor.next with keyAllowed := true }

/-- Opens a block for a mark that stands where a key may begin. The character behind it shows that it is a mark. -/
def blockFor (s : Scan) (token : Token) : Except Stop Scan :=
  if s.depth ≠ 0 then .ok s
  else if !s.keyAllowed then s.cursor.next.refuse
  else if s.opensBlock s.cursor.column then .ok ((s.push [token]).openBlock s.cursor.column)
  else .ok s

def blockEntry (s : Scan) : Except Stop Scan := do
  let s ← s.blockFor .blockSequence
  let s ← s.dropPlace
  return { s.emit .entry s.cursor.next with keyAllowed := true }

def explicitKey (s : Scan) : Except Stop Scan := do
  let s ← s.blockFor .blockMapping
  let s ← s.dropPlace
  return { s.emit .key s.cursor.next with keyAllowed := s.depth = 0 }

/-- The colon behind a key, or one without a key before it. -/
def valueMark (s : Scan) : Except Stop Scan := do
  match s.places.lookup s.depth with
  | some place =>
    let s := { s with places := s.places.filter fun p => p.1 != s.depth }
    let opens := s.depth = 0 && s.opensBlock place.column
    let s := if opens then s.openBlock place.column else s
    let marks : List Token := if opens then [.blockMapping, .key] else [.key]
    let s := { s with slots := s.slots.setIfInBounds place.slot marks, keyAllowed := false }
    return s.emit .value s.cursor.next
  | none =>
    let s ← s.blockFor .blockMapping
    let s ← Scan.dropPlace { s with keyAllowed := s.depth = 0 }
    return s.emit .value s.cursor.next

/-- A token that a key may begin with. -/
def leaf (s : Scan) (read : Scan → Except Stop (Token × Cursor)) : Except Stop Scan := do
  let s ← s.openPlace
  let (token, c) ← read s
  return { s.emit token c with keyAllowed := false }

/-- A plain scalar. A key may begin behind it if it ended with its line. -/
def plainScalar (s : Scan) : Except Stop Scan := do
  let s ← s.openPlace
  let (text, c, ended) := ScalarText.plain (s.depth != 0) (s.indent + 1) s.cursor
  return { s.emit (.scalar (CodePoint.ofChars text) true) c with keyAllowed := ended }

def quotedScalar (double : Bool) (s : Scan) : Except Stop (Token × Cursor) := do
  let (text, c) ← ScalarText.quoted double s.cursor
  return (.scalar (CodePoint.stringOf text) false, c)

def blockScalar (s : Scan) : Except Stop Scan := do
  let s ← s.dropPlace
  let (text, c) ← ScalarText.block s.indent s.cursor
  return { s.emit (.scalar (CodePoint.ofChars text) false) c with keyAllowed := true }

def beginsPlain (flow : Bool) (ch : Char) (next : Option Char) : Bool :=
  if endsToken (some ch) || "-?:,[]\x7b\x7d#&*!|>'\"%@`".contains ch then
    !endsToken next && (ch = '-' || (!flow && (ch = '?' || ch = ':')))
  else true

/-- The token that begins with a character here. That none does is known only from the character behind it. -/
def token (s : Scan) (ch : Char) : Except Stop Scan :=
  let c := s.cursor
  let flow := s.depth != 0
  let endsNext := endsToken (c.peek 1)
  if ch = '%' && c.column = 0 then do
    let s ← (s.unwind (-1)).dropPlace
    let (token, c) ← Token.directiveAt c
    return { s.emit token c with keyAllowed := false }
  else if c.column = 0 && c.isMarker '-' then s.boundary .documentStart (c.move 3)
  else if c.column = 0 && c.isMarker '.' then s.boundary .documentEnd (c.move 3)
  else if ch = '[' then s.bracket .flowSequence
  else if ch = '\x7b' then s.bracket .flowMapping
  else if ch = ']' then s.bracketEnd .flowSequenceEnd
  else if ch = '\x7d' then s.bracketEnd .flowMappingEnd
  else if ch = ',' then s.flowEntry
  else if ch = '-' && endsNext then s.blockEntry
  else if ch = '?' && (flow || endsNext) then s.explicitKey
  else if ch = ':' && (flow || endsNext) then s.valueMark
  else if ch = '*' then s.leaf fun s => do let (n, c) ← Token.anchorName s.cursor; return (.alias n, c)
  else if ch = '&' then s.leaf fun s => do let (n, c) ← Token.anchorName s.cursor; return (.anchor n, c)
  else if ch = '!' then s.leaf fun s => Token.tagAt s.cursor
  else if (ch = '|' || ch = '>') && !flow then s.blockScalar
  else if ch = '\'' then s.leaf (quotedScalar false)
  else if ch = '"' then s.leaf (quotedScalar true)
  else if beginsPlain flow ch (c.peek 1) then s.plainScalar
  else c.next.refuse

/-- The number of slots whose tokens are settled: those before the first one that is left open for a key. -/
def settled (s : Scan) : Nat := s.places.foldl (fun least p => min least p.2.slot) s.slots.size

def tokensTo (count : Nat) (s : Scan) : List Token := (s.slots.toList.take count).flatten

/-- One more token, and whether it is the last: none is left at the end of the text. `ending` says how the supply of
    characters ends if it is not with the document. -/
def advance (ending : Option Fault) (fuel : Nat) (s : Scan) : Except Stop (Scan × Bool) := do
  let s ← (skipToToken fuel s).dropStale
  let s := s.unwind s.cursor.column
  match s.cursor.peek with
  | some ch =>
    let s ← s.token ch
    if ending.isSome && s.cursor.rest.isEmpty then s.cursor.refuse else return (s, false)
  | none => if ending.isSome then s.cursor.refuse else return (← (s.unwind (-1)).dropPlace, true)

/-- The tokens of the rest of a document. A token behind a slot that is open for a key is not known to be what it is, so
    what goes wrong in the search for the colon stands in place of all from that slot on. -/
def run (ending : Option Fault) : Nat → Scan → List Token
  | 0, s => s.tokensTo s.slots.size
  | fuel + 1, s =>
    match s.dropStale with
    | .error stop => s.tokensTo s.settled ++ [.fault (stop.causeUnder ending)]
    | .ok s =>
      match s.advance ending (fuel + 1) with
      | .error stop => s.tokensTo s.settled ++ [.fault (stop.causeUnder ending)]
      | .ok (s, true) => s.tokensTo s.slots.size
      | .ok (s, false) => run ending fuel s

end Scan

/-- The tokens of a supply of characters. A byte order mark before them is passed over. -/
def Token.scan (text : List Char) (ending : Option Fault) : List Token :=
  let c := Cursor.start text
  let c := if c.has '\ufeff' then c.next else c
  Scan.run ending (text.length + 1) { cursor := c }

end CpuLoad.Markup
