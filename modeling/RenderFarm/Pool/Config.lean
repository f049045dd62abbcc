/-!
# Configuration of a pool of workers
-/

namespace RenderFarm

/-- How long a worker stays idle before that is reported, in milliseconds. -/
def standardIdleWindow : Nat := 100

structure Pool.Config where
  requested : Nat
  idleWindow : Nat
  threadPrefix : String
  deriving DecidableEq

namespace Pool.Config

/-- A worker for each processor, four when their number is unknown. -/
def standard (processors : Option Nat) : Pool.Config :=
  ⟨processors.getD 4, standardIdleWindow, "scanline-worker"⟩

def ofCount (processors : Option Nat) (requested : Nat) : Pool.Config :=
  { standard processors with requested := requested }

/-- The number of workers that are started, at least one. -/
def size (config : Pool.Config) : Nat :=
  max config.requested 1

end Pool.Config

end RenderFarm
