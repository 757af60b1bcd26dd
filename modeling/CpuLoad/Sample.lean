import CpuLoad.Value

/-!
One measured figure with its unit, the wall-clock time of its round and its labels. A collector may put a value of any
shape in any of these places.
-/
namespace CpuLoad

/-- A measured figure. -/
structure Sample where
  name : Value
  value : Value
  unit : Value
  timestamp : Value
  labels : Value := .table []
  description : Value := .text ""
  deriving Inhabited

end CpuLoad
