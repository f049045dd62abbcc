import Mathlib.Algebra.GroupWithZero.Nat
import RenderFarm.Farm.Render

/-!
# A render, move by move

`Farm.render` lets the drivers take turns. Drivers really run side by side, together with threads
that cancel the render and with whatever else happens to the workers. A `Rendering` is a render under
way, a `Move` is the next access of one thread, and `play` makes the moves of a list in order, so a
list of moves is an interleaving. A move of a thread that has nothing to do changes nothing.

A cancel is three accesses to the cursor, made under a lock, so that at most one cancel is under way.
When all drivers have stopped, the render's own thread reads the flag; if it is raised, the thread
asks for the rows left, which means to read the flag once more and then a count.
-/

namespace RenderFarm

/-- Where a cancel stands that has taken the cursor. -/
inductive Cancelling where
  | record (position : Int)
  | raise
  deriving DecidableEq

/-- Where the render's own thread stands at the end of the render. -/
inductive Closing where
  /-- The thread waits for the drivers. -/
  | waiting
  /-- The flag was found raised and is to be read again. -/
  | reading
  /-- The flag was read again, and the rows left are to be counted. -/
  | counting (flag : Bool)
  | closed (cancelled : Bool)
  deriving DecidableEq

/-- What became of a row in the hands of the driver of worker `id`. -/
inductive Occurrence where
  | claimed (id : Nat) (row : UInt32)
  | published (id : Nat) (row : UInt32) (colors : List UInt32)
  /-- The worker had no scene for the row. -/
  | skipped (id : Nat) (row : UInt32)
  /-- The worker was gone when it was asked for the row. -/
  | lost (id : Nat) (row : UInt32)
  deriving DecidableEq

namespace Occurrence

def driver : Occurrence → Nat
  | claimed id _ | published id _ _ | skipped id _ | lost id _ => id

def claim? : Occurrence → Option UInt32
  | claimed _ row => some row
  | _ => none

def line? : Occurrence → Option UInt32
  | published _ row _ => some row
  | _ => none

/-- The row that the driver is done with, in one way or the other. -/
def settled? : Occurrence → Option UInt32
  | published _ row _ | skipped _ row | lost _ row => some row
  | claimed _ _ => none

/-- The rows claimed, in the order of the claims. -/
def claims (history : List Occurrence) : List UInt32 :=
  history.filterMap claim?

/-- The rows published, in the order of their publication. -/
def lines (history : List Occurrence) : List UInt32 :=
  history.filterMap line?

def settled (history : List Occurrence) : List UInt32 :=
  history.filterMap settled?

/-- What happened in the hands of one driver. -/
def byDriver (id : Nat) (history : List Occurrence) : List Occurrence :=
  history.filter fun occurrence => occurrence.driver == id

end Occurrence

/-- What a step of the driver of worker `id` did to a row, read off the phases before and after. -/
def RowDriver.occurrence? (id : Nat) : Phase → Phase → Option Occurrence
  | .claim, .await row => some (.claimed id row)
  | .await row, .test => some (.skipped id row)
  | .await row, .stopped => some (.lost id row)
  | .publish row colors, .test => some (.published id row colors)
  | _, _ => none

@[simp] theorem RowDriver.occurrence?_test (id : Nat) (after : Phase) :
    occurrence? id .test after = none :=
  rfl

/-- A render under way. -/
structure Rendering (ε σ Audience : Type) where
  farm : Farm ε σ Audience
  /-- The index of its cursor among those of the farm. -/
  number : Nat
  /-- The drivers by the number of their worker. -/
  drivers : List RowDriver
  /-- The cancel that holds the lock, if there is one. -/
  cancelling : Option Cancelling
  closing : Closing
  history : List Occurrence

/-- The next access of one of the threads around a render. -/
inductive Move (ε σ : Type) where
  /-- The driver of worker `id` takes a step. -/
  | drive (id : Nat)
  /-- The cancel under way makes its next access; if there is none, one begins. -/
  | cancel
  /-- The render's own thread takes a step. -/
  | close
  /-- Worker `id` changes by itself: its thread ends, or it has served somebody else. -/
  | alter (id : Nat) (worker : Worker ε σ)

def Move.isCancel {ε σ : Type} : Move ε σ → Bool
  | .cancel => true
  | .drive _ | .close | .alter .. => false

namespace Rendering

variable {ε σ Audience : Type}

/-- A render of a scene of the given size that has told that the scene was loaded. -/
def start (listeners : Listeners ε σ Audience) (farm : Farm ε σ Audience) (size : Dimensions) :
    Rendering ε σ Audience :=
  let (number, farm) := farm.beginRender size
  let farm := farm.publish listeners (.sceneLoaded size)
  ⟨farm, number, List.replicate farm.workers.size RowDriver.start, none, .waiting, []⟩

def cursor? (rendering : Rendering ε σ Audience) : Option RowCursor :=
  rendering.farm.cursors[rendering.number]?

def setCursor (rendering : Rendering ε σ Audience) (cursor : RowCursor) : Rendering ε σ Audience :=
  { rendering with farm := rendering.farm.modifyCursor rendering.number fun _ => cursor }

def cancel (rendering : Rendering ε σ Audience) (cursor : RowCursor) : Rendering ε σ Audience :=
  match rendering.cancelling with
  | none =>
    let (position, taken) := cursor.take
    { rendering.setCursor taken with cancelling := some (.record position) }
  | some (.record position) =>
    { rendering.setCursor (cursor.record position) with cancelling := some .raise }
  | some .raise => { rendering.setCursor cursor.raise with cancelling := none }

def close (rendering : Rendering ε σ Audience) (cursor : RowCursor) : Rendering ε σ Audience :=
  match rendering.closing with
  | .waiting =>
    if rendering.drivers.all RowDriver.isStopped then
      { rendering with closing := if cursor.cancelled then .reading else .closed false }
    else rendering
  | .reading => { rendering with closing := .counting cursor.cancelled }
  | .counting flag => { rendering with closing := .closed (0 < cursor.remainingAfter flag) }
  | .closed _ => rendering

/-- What the render's own thread gives back when it is done. -/
def report? (rendering : Rendering ε σ Audience) : Option RenderSummary :=
  match rendering.closing with
  | .closed cancelled =>
    some ⟨(rendering.drivers.map RowDriver.published).sum, cancelled⟩
  | .waiting | .reading | .counting _ => none

theorem report?_eq_some {rendering : Rendering ε σ Audience} {report : RenderSummary}
    (returned : report ∈ rendering.report?) :
    rendering.closing = .closed report.cancelled ∧
      report.rowsComputed = (rendering.drivers.map RowDriver.published).sum := by
  unfold report? at returned
  split at returned
  · next cancelled closed =>
    cases returned
    exact ⟨closed, rfl⟩
  all_goals cases returned

variable [Scene σ] [Evaluator ε σ] (listeners : Listeners ε σ Audience)

def drive (rendering : Rendering ε σ Audience) (id : Nat) : Rendering ε σ Audience :=
  match rendering.drivers[id]? with
  | none => rendering
  | some driver =>
    let (next, farm) := Farm.stepDriver listeners rendering.number id driver rendering.farm
    { rendering with
      farm := farm
      drivers := rendering.drivers.set id next
      history :=
        rendering.history ++ (RowDriver.occurrence? id driver.phase next.phase).toList }

def step (rendering : Rendering ε σ Audience) (move : Move ε σ) : Rendering ε σ Audience :=
  match move with
  | .drive id => rendering.drive listeners id
  | .cancel => (rendering.cursor?.map rendering.cancel).getD rendering
  | .close => (rendering.cursor?.map rendering.close).getD rendering
  | .alter id worker => { rendering with farm := rendering.farm.setWorker id worker }

/-- A line goes on record when it is told to the listeners. -/
theorem drive_publish {rendering : Rendering ε σ Audience} {id : Nat} {driver : RowDriver}
    {cursor : RowCursor} {row : UInt32} {colors : List UInt32}
    (found : rendering.drivers[id]? = some driver) (there : rendering.cursor? = some cursor)
    (phase : driver.phase = .publish row colors) :
    rendering.drive listeners id =
      { rendering with
        farm := rendering.farm.publish listeners (.lineComputed row cursor.size colors)
        drivers := rendering.drivers.set id driver.sent
        history := rendering.history ++ [.published id row colors] } := by
  have cursorAt : rendering.farm.cursors[rendering.number]? = some cursor := there
  simp only [drive, found, Farm.stepDriver, cursorAt, phase]
  rfl

/-- A cancel touches the cursor only, and how far it has come itself. -/
theorem step_cancel (rendering : Rendering ε σ Audience) :
    ∃ farm cancelling, rendering.step listeners .cancel =
      { rendering with farm := farm, cancelling := cancelling } := by
  cases found : rendering.cursor? with
  | none => exact ⟨_, _, by simp only [step, found, Option.map_none, Option.getD_none]; rfl⟩
  | some cursor =>
      simp only [step, found, Option.map_some, Option.getD_some, cancel]
      split <;> exact ⟨_, _, rfl⟩

/-- The render's own thread only reads. -/
theorem step_close (rendering : Rendering ε σ Audience) :
    ∃ closing, rendering.step listeners .close = { rendering with closing := closing } := by
  cases found : rendering.cursor? with
  | none => exact ⟨_, by simp only [step, found, Option.map_none, Option.getD_none]; rfl⟩
  | some cursor =>
      simp only [step, found, Option.map_some, Option.getD_some, close]
      split
      · split <;> exact ⟨_, rfl⟩
      all_goals exact ⟨_, rfl⟩

/-- Makes moves one after the other. -/
def play (rendering : Rendering ε σ Audience) (moves : List (Move ε σ)) :
    Rendering ε σ Audience :=
  moves.foldl (step listeners) rendering

theorem play_append (rendering : Rendering ε σ Audience) (before after : List (Move ε σ)) :
    rendering.play listeners (before ++ after) =
      (rendering.play listeners before).play listeners after :=
  List.foldl_append

end Rendering

end RenderFarm
