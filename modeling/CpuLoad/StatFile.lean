import CpuLoad.Blank
import CpuLoad.Rows
import CpuLoad.Ticks

/-!
A statistics file has one line of counters for all processors together and one for each processor, among other lines.
`rows` reads the lines that begin with `cpu`, by their first word; of two lines with one word the later one counts.
-/
namespace CpuLoad.StatFile
open CpuLoad.Blank

def isCounterLine (line : List Char) : Bool := ['c', 'p', 'u'].isPrefixOf line

/-- The counters of a line: all words after the first are read as integers. -/
def counters (words : List String) : Except Fault Snapshot := do
  .ok (Snapshot.ofList (← words.mapM fun w => (Value.text w).toInt))

/-- The rows of the counter lines among some lines, after those read before. -/
def rowsFrom (rows : List (String × Snapshot)) : List (List Char) → Except Fault (List (String × Snapshot))
  | [] => .ok rows
  | line :: rest =>
    if isCounterLine line then
      match (words line).map String.ofList with
      | [] => rowsFrom rows rest
      | name :: counts => do rowsFrom (Rows.enter name (← counters counts) rows) rest
    else rowsFrom rows rest

def rows (text : String) : Except Fault (List (String × Snapshot)) := rowsFrom [] (lines text.toList)

def aggregate (rows : List (String × Snapshot)) : Snapshot := (rows.lookup "cpu").getD .zero

def processor (rows : List (String × Snapshot)) (i : Nat) : Snapshot :=
  (rows.lookup ("cpu" ++ String.ofList (DecimalDigit.digitsOf i))).getD .zero

end CpuLoad.StatFile
