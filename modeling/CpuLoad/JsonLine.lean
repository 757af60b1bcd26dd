import CpuLoad.Fault
import CpuLoad.Sample

/-!
One sample as one line: an object of its name, value, unit, timestamp and labels, in ASCII alone. A text escapes quotes,
backslashes, controls and everything beyond ASCII, code points beyond the basic plane as a pair of surrogates, so a line
never breaks inside. Doubles that JSON does not know are written by name. A sample with an integer of too many digits, or
with a value that JSON has no form for, has no line.
-/
namespace CpuLoad.JsonLine
open CpuLoad.DecimalDigit

def unitEscape (n : Nat) : List Char := '\\' :: 'u' :: Quoted.hexText 4 n

/-- The letter that stands behind a backslash for a code point, if one does. -/
def letterFor? (n : Nat) : Option Char :=
  if n = '"'.toNat then some '"'
  else if n = '\\'.toNat then some '\\'
  else if n = '\n'.toNat then some 'n'
  else if n = '\r'.toNat then some 'r'
  else if n = '\t'.toNat then some 't'
  else if n = 0x08 then some 'b'
  else if n = 0x0C then some 'f'
  else none

/-- The written form of one code point of a text. -/
def escape (n : Nat) : List Char :=
  match letterFor? n with
  | some letter => ['\\', letter]
  | none =>
    if 32 ≤ n && n < 127 then [Char.ofNat n]
    else if n < 0x10000 then unitEscape n
    else unitEscape (0xD800 + (n - 0x10000) / 0x400) ++ unitEscape (0xDC00 + (n - 0x10000) % 0x400)

def encodeText (s : String) : List Char := '"' :: (CodePoint.points s).flatMap escape ++ ['"']

/-- A double as a number, or by name. -/
def encodeFloat (x : Float) : List Char :=
  match Binary64.parts x with
  | .nan => "NaN".toList
  | .infinite negative => (if negative then "-Infinity" else "Infinity").toList
  | .finite .. => (Shortest.text x).toList

/-- An integer in decimal digits, as long as it has no more of them than are written. -/
def encodeInt (n : Int) : Except Fault String := if isWritable n then .ok (intText n) else .error .notNumber

/-- The text that stands for a key of an object. A key is a text, or one of the values that have a word or a number. -/
def keyText : Value → Except Fault String
  | .text s => .ok s
  | .null => .ok "null"
  | .bool b => .ok (if b then "true" else "false")
  | .int n => encodeInt n
  | .float x => .ok (String.ofList (encodeFloat x))
  | _ => .error .wrongKind

mutual

/-- The written form of a value. A pair is a list of two. JSON has no form for bytes, timestamps and sets, and what begins
    again inside itself has no end. -/
def encode : Value → Except Fault (List Char)
  | .null => .ok "null".toList
  | .bool b => .ok (if b then "true" else "false").toList
  | .int n => do return (← encodeInt n).toList
  | .float x => .ok (encodeFloat x)
  | .text s => .ok (encodeText s)
  | .list items => do return '[' :: (← encodeItems items) ++ [']']
  | .table rows => do return '{' :: (← encodeRows rows) ++ ['}']
  | .pair v w => do return '[' :: (← encode v) ++ ',' :: ' ' :: (← encode w) ++ [']']
  | .bytes _ | .time _ | .set _ => .error .wrongKind
  | .again _ => .error .tooDeep

def encodeItems : List Value → Except Fault (List Char)
  | [] => .ok []
  | [v] => encode v
  | v :: vs => do return (← encode v) ++ ',' :: ' ' :: (← encodeItems vs)

/-- The rows of a table between commas. -/
def encodeRows : List (Value × Value) → Except Fault (List Char)
  | [] => .ok []
  | [(k, v)] => do return encodeText (← keyText k) ++ ':' :: ' ' :: (← encode v)
  | (k, v) :: rows => do
    return encodeText (← keyText k) ++ ':' :: ' ' :: (← encode v) ++ ',' :: ' ' :: (← encodeRows rows)

end

def recordOf (s : Sample) : Value :=
  .table [(.text "name", s.name), (.text "value", s.value), (.text "unit", s.unit),
    (.text "timestamp", s.timestamp), (.text "labels", s.labels)]

/-- The line of a sample. A sample is copied first, its description included, and what has no end is not copied. -/
def lineOf (s : Sample) : Except Fault String := do
  if (recordOf s).beginsAgain || s.description.beginsAgain then throw .tooDeep
  return String.ofList ((← encode (recordOf s)) ++ ['\n'])

end CpuLoad.JsonLine
