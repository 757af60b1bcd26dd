import CpuLoad.Markup.Cursor

/-!
How the four written forms of a scalar give its text: in single or in double quotes, plain, and as a block of lines that
is kept or folded. A line break inside a quoted or plain scalar counts as a space, and each further one as itself. Only
the escapes between double quotes write code points that are no characters.
-/
namespace CpuLoad.Markup.ScalarText
open CpuLoad.Markup

-- Powers are the core library's, whatever else is loaded. For that a literal exponent has its type.
attribute [local instance (high)] instPowNat

/-- What several line breaks in a row come to: the first one is a space if it is alone, and nothing otherwise. -/
def joinBreaks (first more : List Char) : List Char :=
  (if first ≠ ['\n'] then first else if more = [] then [' '] else []) ++ more

def isSpace (c : Char) : Bool := c = ' ' || c = '\t'

/-! ### Quoted -/

/-- The code points that a letter behind a backslash stands for. -/
def escapes : List (Char × Nat) := [
  ('0', 0x00), ('a', 0x07), ('b', 0x08), ('t', 0x09), ('\t', 0x09), ('n', 0x0A), ('v', 0x0B), ('f', 0x0C),
  ('r', 0x0D), ('e', 0x1B), (' ', 0x20), ('"', 0x22), ('\\', 0x5C), ('/', 0x2F), ('N', 0x85), ('_', 0xA0),
  ('L', 0x2028), ('P', 0x2029)]

/-- The number of hexadecimal digits behind a letter that announces a code point. -/
def codeLengths : List (Char × Nat) := [('x', 2), ('u', 4), ('U', 8)]

def hexValue? (c : Char) : Option Nat :=
  if c.isDigit then some (c.toNat - '0'.toNat)
  else if 'a' ≤ c && c ≤ 'f' then some (c.toNat - 'a'.toNat + 10)
  else if 'A' ≤ c && c ≤ 'F' then some (c.toNat - 'A'.toNat + 10)
  else none

/-- The value of a run of hexadecimal digits. -/
def hexNumber? (cs : List Char) : Option Nat :=
  cs.foldlM (fun n c => (hexValue? c).map (16 * n + ·)) 0

/-- A code point, which may be half of a pair. A number beyond the code points is none, one beyond 31 bits too
    large. -/
def checkedCode (code : Nat) : Except Stop Nat :=
  if 2 ^ (31 : Nat) ≤ code then .error ⟨.tooLarge, false⟩
  else if CodePoint.greatest < code then .error ⟨.notNumber, false⟩
  else .ok code

/-- The place of the first character here, among the next `n`, that is no hexadecimal digit. -/
def firstNoDigit (n : Nat) (c : Cursor) : Cursor :=
  c.move ((c.rest.take n).takeWhile fun ch => (hexValue? ch).isSome).length

/-- The code point written with `n` digits here, and the place behind it. -/
def codePoint (n : Nat) (c : Cursor) : Except Stop (List Nat × Cursor) :=
  let digits := c.rest.take n
  match (if digits.length = n then hexNumber? digits else none) with
  | some code => do return ([← checkedCode code], c.move n)
  | none => (firstNoDigit n c).refuse

def codes (cs : List Char) : List Nat := cs.map Char.toNat

/-- The line breaks here with the blanks around them. A separator of documents must not follow a break. -/
def quotedBreaks : Nat → Cursor → Except Stop (List Char × Cursor)
  | 0, c => c.refuse
  | fuel + 1, c =>
    if c.isSeparator then c.refuse
    else
      let c := c.skipWhile isSpace
      match c.lineBreak with
      | ([], _) => .ok ([], c)
      | (first, c) => do
        let (more, c) ← quotedBreaks fuel c
        return (first ++ more, c)

/-- What the blanks and line breaks here stand for. -/
def quotedSpaces (fuel : Nat) (c : Cursor) : Except Stop (List Char × Cursor) :=
  let (blanks, c) := c.takeWhile isSpace
  match c.peek with
  | none => c.refuse
  | some ch =>
    if isBreak ch then do
      let (first, c) := c.lineBreak
      let (more, c) ← quotedBreaks fuel c
      return (joinBreaks first more, c)
    else .ok (blanks, c)

/-- What a backslash stands for, from the character behind it on. -/
def escape (fuel : Nat) (c : Cursor) : Except Stop (List Nat × Cursor) :=
  match c.peek with
  | none => c.refuse
  | some ch =>
    match escapes.lookup ch, codeLengths.lookup ch with
    | some code, _ => .ok ([code], c.next)
    | none, some n => codePoint n c.next
    | none, none =>
      if isBreak ch then do
        let (breaks, c) ← quotedBreaks fuel c.lineBreak.2
        return (codes breaks, c)
      else c.refuse

/-- The text up to the next blank, line break or closing quote. -/
def quotedWord (double : Bool) : Nat → Cursor → Except Stop (List Nat × Cursor)
  | 0, c => c.refuse
  | fuel + 1, c =>
    let (plain, c) := c.takeWhile fun ch => !(ch = '\'' || ch = '"' || ch = '\\' || isSpace ch || isBreak ch)
    let goOn (text : List Nat) (c : Cursor) : Except Stop (List Nat × Cursor) := do
      let (more, c) ← quotedWord double fuel c
      return (codes plain ++ text ++ more, c)
    match double, c.rest with
    | false, '\'' :: '\'' :: _ => goOn (codes ['\'']) (c.move 2)
    | false, '"' :: _ => goOn (codes ['"']) c.next
    | false, '\\' :: _ => goOn (codes ['\\']) c.next
    | true, '\'' :: _ => goOn (codes ['\'']) c.next
    | true, '\\' :: _ => do
      let (text, c) ← escape fuel c.next
      goOn text c
    | _, _ => .ok (codes plain, c)

def quotedRest (double : Bool) : Nat → Cursor → Except Stop (List Nat × Cursor)
  | 0, c => c.refuse
  | fuel + 1, c => do
    let (word, c) ← quotedWord double (c.rest.length + 1) c
    if c.has (if double then '"' else '\'') then return (word, c.next)
    let (spaces, c) ← quotedSpaces (c.rest.length + 1) c
    let (more, c) ← quotedRest double fuel c
    return (word ++ codes spaces ++ more, c)

def quoted (double : Bool) (c : Cursor) : Except Stop (List Nat × Cursor) :=
  quotedRest double (c.rest.length + 1) c.next

/-! ### Plain -/

def isBracketSign (c : Char) : Bool := c = ',' || c = '[' || c = ']' || c = '\x7b' || c = '\x7d'

/-- The characters of a plain scalar up to the next blank, line break or sign that ends it. -/
def plainWord (flow : Bool) : List Char → List Char
  | [] => []
  | ch :: rest =>
    let next := rest.head?
    let colonEnds := ch = ':' && (endsToken next || (flow && (next.map isBracketSign).getD true))
    if isSpace ch || isBreak ch || colonEnds || (flow && (ch = '?' || isBracketSign ch)) then []
    else ch :: plainWord flow rest

/-- The line breaks here with the spaces around them; none if a separator of documents follows one of them. -/
def plainBreaks : Nat → Cursor → Option (List Char) × Cursor
  | 0, c => (none, c)
  | fuel + 1, c =>
    if c.isSeparator then (none, c)
    else
      let c := c.skipSpaces
      match c.lineBreak with
      | ([], _) => (some [], c)
      | (first, c) =>
        let (more, c) := plainBreaks fuel c
        (more.map (first ++ ·), c)

/-- What lies between two words of a plain scalar: its text, the place behind it, and whether a line ended. -/
def plainSpaces (c : Cursor) : List Char × Cursor × Bool :=
  let (blanks, c) := c.takeWhile (· = ' ')
  match c.lineBreak with
  | ([], _) => (blanks, c, false)
  | (first, c) =>
    let (more, c) := plainBreaks (c.rest.length + 1) c
    (((more.map (joinBreaks first)).getD []), c, true)

/-- The text of a plain scalar from a word on, the place behind it, and whether a line ended there. Outside brackets a
    line indented less than `indent` does not belong to it. -/
def plainRest (flow : Bool) (indent : Int) : Nat → Cursor → List Char × Cursor × Bool
  | 0, c => ([], c, false)
  | fuel + 1, c =>
    let word := plainWord flow c.rest
    let (spaces, c, ended) := plainSpaces (c.move word.length)
    if spaces = [] || c.has '#' || (!flow && Int.ofNat c.column < indent) || plainWord flow c.rest = [] then
      (word, c, ended)
    else
      let (more, c, ended) := plainRest flow indent fuel c
      (word ++ spaces ++ more, c, ended)

/-- The text of a plain scalar that begins here, the place behind it, and whether a line ended there. -/
def plain (flow : Bool) (indent : Int) (c : Cursor) : List Char × Cursor × Bool :=
  plainRest flow indent (c.rest.length + 1) c

/-! ### Blocks -/

/-- Which of the line breaks at its end a block keeps. -/
inductive Chomping
  | strip
  | clip
  | keep
  deriving DecidableEq

/-- What a sign at the head of a block says about its end. -/
def chompingOf (c : Char) : Option Chomping :=
  if c = '+' then some .keep else if c = '-' then some .strip else none

/-- The value of a digit at the head of a block. -/
def incrementOf (c : Char) : Option Nat := if c.isDigit then some (c.toNat - '0'.toNat) else none

/-- The head of a block: a sign and a digit in either order, both optional. The digit is not zero. -/
def blockHead (c : Cursor) : Except Stop (Chomping × Option Nat × Cursor) := do
  let digit (c : Cursor) : Except Stop (Option Nat × Cursor) :=
    match c.peek.bind incrementOf with
    | some 0 => c.refuse
    | some n => .ok (some n, c.next)
    | none => .ok (none, c)
  let (chomping, increment, c) ← match c.peek.bind chompingOf with
    | some chomping => do
      let (increment, c) ← digit c.next
      pure (chomping, increment, c)
    | none => do
      let (increment, c) ← digit c
      match increment, c.peek.bind chompingOf with
      | some _, some chomping => pure (chomping, increment, c.next)
      | _, _ => pure (.clip, increment, c)
  if endsWord c.peek then return (chomping, increment, c) else c.refuse

/-- The line breaks before the first line of a block, the place behind them, and the widest indentation among them. -/
def leadingBreaks : Nat → Nat → Cursor → List Char × Nat × Cursor
  | 0, widest, c => ([], widest, c)
  | fuel + 1, widest, c =>
    if c.has ' ' then
      let c := c.skipSpaces
      leadingBreaks fuel (max widest c.column) c
    else match c.lineBreak with
      | ([], _) => ([], widest, c)
      | (first, c) =>
        let (more, widest, c) := leadingBreaks fuel widest c
        (first ++ more, widest, c)

/-- The place behind the spaces here up to a column. -/
def skipIndent (indent : Nat) (c : Cursor) : Cursor :=
  c.move ((c.rest.takeWhile (· = ' ')).length.min (indent - c.column))

/-- The line breaks between two lines of a block, and the place behind the indentation. -/
def blockBreaks (indent : Nat) : Nat → Cursor → List Char × Cursor
  | 0, c => ([], c)
  | fuel + 1, c =>
    let c := skipIndent indent c
    match c.lineBreak with
    | ([], _) => ([], c)
    | (first, c) =>
      let (more, c) := blockBreaks indent fuel c
      (first ++ more, c)

/-- The text of a block from a line on, given the breaks before that line, and the place behind it. -/
def blockLines (folded : Bool) (indent : Nat) (chomping : Chomping) :
    Nat → Cursor → List Char → List Char × Cursor
  | 0, c, _ => ([], c)
  | fuel + 1, c, before =>
    let leading := !(c.peek.map isSpace).getD false
    let (line, c) := c.takeWhile (!isBreak ·)
    let (end', c) := c.lineBreak
    let (breaks, c) := blockBreaks indent (c.rest.length + 1) c
    if c.column = indent && c.rest ≠ [] then
      let (more, c') := blockLines folded indent chomping fuel c breaks
      let fold := folded && end' == ['\n'] && leading && !(c.peek.map isSpace).getD false
      let gap := if fold then (if breaks = [] then [' '] else []) else end'
      (before ++ line ++ gap ++ more, c')
    else
      let tail := match chomping with
        | .strip => []
        | .clip => end'
        | .keep => end' ++ breaks
      (before ++ line ++ tail, c)

/-- The text of a block that begins here, and the place behind it. The block is indented more than `indent`. -/
def block (indent : Int) (c : Cursor) : Except Stop (List Char × Cursor) := do
  let folded := c.has '>'
  let (chomping, increment, c) ← blockHead c.next
  let some c := c.endOfLine | c.refuse
  let least := (max (indent + 1) 1).toNat
  let (breaks, width, c) := match increment with
    | some n =>
      let width := least + n - 1
      let (breaks, c) := blockBreaks width (c.rest.length + 1) c
      (breaks, width, c)
    | none =>
      let (breaks, widest, c) := leadingBreaks (c.rest.length + 1) 0 c
      (breaks, max least widest, c)
  if c.column = width && c.rest ≠ [] then
    return blockLines folded width chomping (c.rest.length + 1) c breaks
  else
    return (if chomping = .keep then breaks else [], c)

end CpuLoad.Markup.ScalarText
