import CpuLoad.StatFile

/-!
What a kernel's statistics file says about the time spent in each state, and what share of it was busy between two
readings. The kernel counts in hundredths of a second.
-/
namespace CpuLoad.KernelTimes

/-- The states of a row, in order. -/
def stateNames : List String := Tick.all.map Tick.name

def rowsOf (text : String) : List (String × Snapshot) := (StatFile.rows text).toOption.getD []

def secondsOf (row : Snapshot) : List (String × Value) :=
  stateNames.zip (row.toList.map fun n => .float (Float.ofInt n / 100.0))

def aggregate (text : String) : List (String × Value) := secondsOf (StatFile.aggregate (rowsOf text))

def processorRows (text : String) : List Snapshot :=
  ((rowsOf text).filter fun p => p.1 != "cpu").map (·.2)

def processors (text : String) : List (List (String × Value)) := (processorRows text).map secondsOf

/-- The load in percent between two texts of the statistics file. -/
def percent (before after : String) : Option Float :=
  (Snapshot.load (StatFile.aggregate (rowsOf before)) (StatFile.aggregate (rowsOf after))).toOption.map (· * 100.0)

/-- The second at which the system started: the word behind `btime`. -/
def started (text : String) : Option Float :=
  ((Blank.linesOf text).map Blank.wordsOf).findSome? fun
    | ["btime", word] => Numeral.float? word
    | _ => none

end CpuLoad.KernelTimes
