import RenderFarm.RowCursor

/-!
# Row drivers

In a render each worker has a driver. A driver tests whether the render was cancelled, claims a
row, awaits its colors, publishes them, and starts over. It stops when it finds the render
cancelled, when no row is left, and when its worker is gone. A row for which the worker has no
scene is skipped.

`RowDriver` is one driver between two of these steps; the functions here say where each step takes
it.
-/

namespace RenderFarm

namespace RowDriver

/-- What a driver does next. -/
inductive Phase where
  | test
  | claim
  | await (row : UInt32)
  | publish (row : UInt32) (colors : List UInt32)
  | stopped
  deriving DecidableEq

/-- What comes back for a row. -/
inductive Answer where
  | colors (colors : List UInt32)
  | noScene
  | disconnected
  deriving DecidableEq

end RowDriver

structure RowDriver where
  phase : RowDriver.Phase
  /-- The number of rows published. -/
  published : Nat
  deriving DecidableEq

namespace RowDriver

def start : RowDriver :=
  ⟨.test, 0⟩

def isStopped (driver : RowDriver) : Bool :=
  driver.phase == .stopped

/-- After the flag of the render was read. -/
def tested (driver : RowDriver) (cancelled : Bool) : RowDriver :=
  { driver with phase := if cancelled then .stopped else .claim }

/-- After a claim. -/
def claimed (driver : RowDriver) : Option UInt32 → RowDriver
  | some row => { driver with phase := .await row }
  | none => { driver with phase := .stopped }

/-- After the worker's answer for a row. -/
def answered (driver : RowDriver) (row : UInt32) : Answer → RowDriver
  | .colors colors => { driver with phase := .publish row colors }
  | .noScene => { driver with phase := .test }
  | .disconnected => { driver with phase := .stopped }

/-- After a row was published. -/
def sent (driver : RowDriver) : RowDriver :=
  ⟨.test, driver.published + 1⟩

end RowDriver

end RenderFarm
