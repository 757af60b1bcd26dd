import CpuLoad.Fault

/-!
A place in a document with the characters from there on and the column, line and index that it has, and the classes of
characters that the scanner looks at. The end of the document counts as a blank and as a line end. Where a document is
refused it matters whether that was decided by a character or by there being none left, because the supply of
characters may end with a fault of its own.
-/
namespace CpuLoad.Markup

def malformed : Fault := .setting .document

/-- A place in a document. -/
structure Cursor where
  rest : List Char
  index : Nat := 0
  line : Nat := 0
  column : Nat := 0
  deriving Inhabited

/-! ### Classes of characters -/

def isBreak (c : Char) : Bool := c = '\n' || c = '\r' || c = '\x85' || c = '\u2028' || c = '\u2029'

def endsLine : Option Char → Bool
  | none => true
  | some c => isBreak c

/-- A space, a line break or the end. -/
def endsWord : Option Char → Bool
  | none => true
  | some c => c = ' ' || isBreak c

/-- A space, a tab, a line break or the end. -/
def endsToken : Option Char → Bool
  | none => true
  | some c => c = ' ' || c = '\t' || isBreak c

def isNameChar (c : Char) : Bool := c.isAlphanum || c = '-' || c = '_'

/-- Whether a character may stand in a document at all. -/
def isAllowed (c : Char) : Bool :=
  let n := c.toNat
  n == 9 || n == 10 || n == 13 || (0x20 ≤ n && n ≤ 0x7E) || n == 0x85 || (0xA0 ≤ n && n ≤ 0xD7FF) ||
    (0xE000 ≤ n && n ≤ 0xFFFD) || 0x10000 ≤ n

/-- Why a document cannot be read on. -/
structure Stop where
  cause : Fault
  /-- Whether it is for want of characters. -/
  atEnd : Bool := false
  deriving Inhabited

/-- What goes wrong, given how the supply of characters ends if it is not with the document. -/
def Stop.causeUnder (ending : Option Fault) (s : Stop) : Fault := if s.atEnd then ending.getD s.cause else s.cause

namespace Cursor

/-- Refuses the document at a place. -/
def refuse {α : Type} (c : Cursor) : Except Stop α := .error ⟨malformed, c.rest.isEmpty⟩

/-! ### Looking and moving -/

def start (text : List Char) : Cursor := { rest := text }

/-- The character some places further on, if the document is that long. -/
def peek (c : Cursor) (n : Nat := 0) : Option Char := c.rest[n]?

def has (c : Cursor) (ch : Char) : Bool := c.rest.head? == some ch

/-- One place further on. A byte order mark takes no column. -/
def next (c : Cursor) : Cursor :=
  match c.rest with
  | [] => c
  | ch :: rest =>
    if isBreak ch && (ch != '\r' || rest.head? != some '\n') then
      { rest, index := c.index + 1, line := c.line + 1, column := 0 }
    else { rest, index := c.index + 1, line := c.line, column := if ch = '\ufeff' then c.column else c.column + 1 }

/-- Some places further on. -/
def move (c : Cursor) : Nat → Cursor
  | 0 => c
  | n + 1 => c.next.move n

/-- The characters from here on that satisfy a predicate, and the place behind them. -/
def takeWhile (c : Cursor) (p : Char → Bool) : List Char × Cursor :=
  let taken := c.rest.takeWhile p
  (taken, c.move taken.length)

/-- The place behind the characters that satisfy a predicate. -/
def skipWhile (c : Cursor) (p : Char → Bool) : Cursor := (c.takeWhile p).2

/-- The place behind the spaces here. -/
def skipSpaces (c : Cursor) : Cursor := c.skipWhile (· = ' ')

/-- The line break here and the place behind it. The Unicode separators stay, any other break is a line feed. -/
def lineBreak (c : Cursor) : List Char × Cursor :=
  match c.rest with
  | '\r' :: '\n' :: _ => (['\n'], c.move 2)
  | ch :: _ =>
    if ch = '\u2028' || ch = '\u2029' then ([ch], c.next)
    else if isBreak ch then (['\n'], c.next)
    else ([], c)
  | [] => ([], c)

/-- The rest of a line: a comment, if one begins here, and the line break. -/
def endOfLine (c : Cursor) : Option Cursor :=
  let c := c.skipSpaces
  let c := if c.has '#' then c.skipWhile (!isBreak ·) else c
  if endsLine c.peek then some c.lineBreak.2 else none

/-- Whether a marker of the given sign stands here: three of it and a blank. -/
def isMarker (c : Cursor) (sign : Char) : Bool :=
  c.rest.take 3 == [sign, sign, sign] && endsToken (c.peek 3)

/-- Whether a marker between documents stands here. -/
def isSeparator (c : Cursor) : Bool := c.isMarker '-' || c.isMarker '.'

end Cursor
end CpuLoad.Markup
