import CpuLoad.Reading

/-!
How long ago something happened, by the readings of a clock. Readings that can be subtracted and ordered, such as
integers, rationals and doubles, always compare. Readings of any shape compare if they are numbers; a reading of nothing
stands for what has never happened, which is longer ago than any limit.
-/
namespace CpuLoad

/-- Readings of a clock that can be compared with a limit. -/
class Elapsed (τ : Type) where
  /-- Whether more than a limit has passed since a reading. -/
  exceeds (limit now since : τ) : Except Fault Bool
  /-- Whether less than a limit has passed since a reading. -/
  isWithin (limit now since : τ) : Except Fault Bool

instance (priority := low) {τ : Type} [Sub τ] [LT τ] [DecidableLT τ] : Elapsed τ where
  exceeds limit now since := .ok (decide (limit < now - since))
  isWithin limit now since := .ok (decide (now - since < limit))

instance : Elapsed Value where
  exceeds limit now since :=
    match since with
    | .null => .ok true
    | since => do limit.isLess (← now.minus since)
  isWithin limit now since := do (← now.minus since).isLess limit

end CpuLoad
