import CpuLoad.Value

/-!
The program reads two clocks: one that counts milliseconds from some start and tells how old a sample is, and the wall
clock in seconds since 1970 that dates samples and files. A reading is a number of either kind, and its kind is kept
where the reading is shown.
-/
namespace CpuLoad

/-- The two clocks. -/
class Clock (m : Type → Type) where
  milliseconds : m Value
  wallSeconds : m Value

instance {m : Type → Type} [Monad m] [Clock m] {σ : Type} : Clock (StateT σ m) where
  milliseconds := StateT.lift Clock.milliseconds
  wallSeconds := StateT.lift Clock.wallSeconds

instance {m : Type → Type} [Monad m] [Clock m] {ε : Type} : Clock (ExceptT ε m) where
  milliseconds := ExceptT.lift Clock.milliseconds
  wallSeconds := ExceptT.lift Clock.wallSeconds

end CpuLoad
