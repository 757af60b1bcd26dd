import CpuLoad.Quoted
import CpuLoad.Shortest
import CpuLoad.Timestamp

/-!
A configuration document, a sample and a source's raw reading hold values of any shape: nothing, truth values, integers,
doubles, texts, lists and tables, and from a document also bytes, timestamps, pairs and sets. A table keeps its rows in
the order in which they were entered. A document may put a list or a table inside itself, and then the inner place says
only that it begins again. Here are a value's text in a message (`quoted`), its plain text (`plain`), whether it has a
text at all, its truth and the equality of table keys.
-/
namespace CpuLoad

/-- A value of any shape. -/
inductive Value
  | null
  | bool (b : Bool)
  | int (n : Int)
  | float (x : Float)
  | text (s : String)
  | list (items : List Value)
  | table (rows : List (Value × Value))
  | bytes (bytes : List UInt8)
  | time (t : Timestamp)
  | pair (first second : Value)
  /-- Values without an order of their own, in the one in which they came. -/
  | set (items : List Value)
  /-- The place inside a list, or inside a table, where the same list or table begins again. -/
  | again (isTable : Bool)
  deriving Inhabited

namespace Value
open CpuLoad.Quoted CpuLoad.DecimalDigit

/-! ### Text -/

mutual

/-- The text of a value in a message, with texts in quotes. -/
def quoted : Value → String
  | null => "None"
  | bool true => "True"
  | bool false => "False"
  | int n => intText n
  | float x => Shortest.text x
  | text s => Quoted.quoted s
  | list items => "[" ++ ", ".intercalate (quotedItems items) ++ "]"
  | table rows => "\x7b" ++ ", ".intercalate (quotedRows rows) ++ "\x7d"
  | bytes bs => Quoted.quotedBytes bs
  | time t => t.quoted
  | pair v w => "(" ++ v.quoted ++ ", " ++ w.quoted ++ ")"
  | set [] => "set()"
  | set items => "\x7b" ++ ", ".intercalate (quotedItems items) ++ "\x7d"
  | again false => "[...]"
  | again true => "\x7b...\x7d"

def quotedItems : List Value → List String
  | [] => []
  | v :: vs => v.quoted :: quotedItems vs

/-- The texts of the rows of a table. -/
def quotedRows : List (Value × Value) → List String
  | [] => []
  | (k, v) :: rows => (k.quoted ++ ": " ++ v.quoted) :: quotedRows rows

end

/-- The text of a value where it stands alone: a text is itself, and a timestamp stands in plain notation. -/
def plain : Value → String
  | text s => s
  | time t => t.plain
  | v => v.quoted

mutual

/-- Whether a value has a text: every integer in it is written. -/
def hasText : Value → Bool
  | int n => isWritable n
  | list items => itemsHaveText items
  | table rows => rowsHaveText rows
  | pair v w => v.hasText && w.hasText
  | set items => itemsHaveText items
  | _ => true

def itemsHaveText : List Value → Bool
  | [] => true
  | v :: vs => v.hasText && itemsHaveText vs

def rowsHaveText : List (Value × Value) → Bool
  | [] => true
  | (k, v) :: rows => k.hasText && v.hasText && rowsHaveText rows

end

mutual

/-- Whether there is a place in a value where a list or a table begins again. -/
def beginsAgain : Value → Bool
  | again _ => true
  | list items => itemsBeginAgain items
  | table rows => rowsBeginAgain rows
  | pair v w => v.beginsAgain || w.beginsAgain
  | set items => itemsBeginAgain items
  | _ => false

def itemsBeginAgain : List Value → Bool
  | [] => false
  | v :: vs => v.beginsAgain || itemsBeginAgain vs

def rowsBeginAgain : List (Value × Value) → Bool
  | [] => false
  | (k, v) :: rows => k.beginsAgain || v.beginsAgain || rowsBeginAgain rows

end

/-! ### Truth and keys -/

/-- Whether a value counts as true: zero and everything empty count as false. -/
def truth : Value → Bool
  | null => false
  | bool b => b
  | int n => n != 0
  | float x => x != 0.0
  | text s => s != ""
  | list items => !items.isEmpty
  | table rows => !rows.isEmpty
  | bytes bs => !bs.isEmpty
  | set items => !items.isEmpty
  | _ => true

def isKey : Value → Bool
  | list _ | table _ | set _ | again _ => false
  | pair v w => v.isKey && w.isKey
  | _ => true

/-- The rational number of a value that is one: truth values count as zero and one. -/
def rational? : Value → Option Rat
  | bool b => some (if b then 1 else 0)
  | int n => some n
  | float x => Binary64.value? x
  | _ => none

/-- Whether two keys are the same. Numbers are compared by value, whatever their kind. -/
def sameKey : Value → Value → Bool
  | null, null => true
  | text s, text t => s == t
  | float x, float y => x == y
  | bytes b, bytes c => b == c
  | time s, time t => s.same t
  | pair v w, pair p q => v.sameKey p && w.sameKey q
  | v, w =>
    match v.rational?, w.rational? with
    | some p, some q => p == q
    | _, _ => false

/-- The value at a key of a table's rows. -/
def at? (key : Value) : List (Value × Value) → Option Value
  | [] => none
  | (k, v) :: rows => if k.sameKey key then some v else at? key rows

def lookup (key : String) (rows : List (Value × Value)) : Option Value := at? (text key) rows

/-- A table's rows with a value entered at a key: in place of the value it has, or else at the end. -/
def enter (key value : Value) : List (Value × Value) → List (Value × Value)
  | [] => [(key, value)]
  | (k, v) :: rows => if k.sameKey key then (k, value) :: rows else (k, v) :: enter key value rows

end Value
end CpuLoad
