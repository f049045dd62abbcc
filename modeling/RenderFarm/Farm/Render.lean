import RenderFarm.Farm.Evaluate

/-!
# Rendering

A render makes its cursor the active one, tells that a scene was loaded, runs a driver for each
worker until all have stopped, and tells that the scene was rendered. Drivers move in small steps,
and any order of the drivers' steps is a possible render; here they take turns.

A render that begins while another is active takes its place. When a render ends, it withdraws
only if it is still the active one.
-/

namespace RenderFarm

/-- What a render came to. -/
structure RenderSummary where
  /-- The number of rows published. -/
  rowsComputed : Nat
  /-- Whether a cancel left rows unclaimed. -/
  cancelled : Bool
  deriving DecidableEq

namespace Farm

variable {ε σ Audience : Type}

def isRendering (farm : Farm ε σ Audience) : Bool :=
  farm.active.isSome

def modifyCursor (farm : Farm ε σ Audience) (render : Nat) (change : RowCursor → RowCursor) :
    Farm ε σ Audience :=
  { farm with cursors := farm.cursors.modify render change }

/-- Stops the active render from handing out rows; tells whether there was one. -/
def cancel (farm : Farm ε σ Audience) : Bool × Farm ε σ Audience :=
  match farm.active with
  | some render => (true, farm.modifyCursor render RowCursor.cancel)
  | none => (false, farm)

/-- Makes a new render the active one. -/
def beginRender (farm : Farm ε σ Audience) (size : Dimensions) : Nat × Farm ε σ Audience :=
  let render := farm.cursors.size
  (render, { farm with cursors := farm.cursors.push (.start size), active := some render })

/-- Withdraws a render, unless another has taken its place. -/
def endRender (farm : Farm ε σ Audience) (render : Nat) : Farm ε σ Audience :=
  if farm.active = some render then { farm with active := none } else farm

variable [Scene σ] [Evaluator ε σ] (listeners : Listeners ε σ Audience)

/-- Asks worker `id` for a row. -/
def answerRow (farm : Farm ε σ Audience) (id : Nat) (row : UInt32) :
    RowDriver.Answer × Farm ε σ Audience :=
  match farm.request listeners id (.compute row) with
  | (.ok (.colors (some colors)), farm) => (.colors colors, farm)
  | (.ok _, farm) => (.noScene, farm)
  | (.error _, farm) => (.disconnected, farm)

/-- One step of the driver of worker `id` in a render. -/
def stepDriver (render id : Nat) (driver : RowDriver) (farm : Farm ε σ Audience) :
    RowDriver × Farm ε σ Audience :=
  match farm.cursors[render]? with
  | none => ({ driver with phase := .stopped }, farm)
  | some cursor =>
    match driver.phase with
    | .test => (driver.tested cursor.cancelled, farm)
    | .claim =>
      let (row, next) := cursor.claim
      (driver.claimed row, farm.modifyCursor render fun _ => next)
    | .await row =>
      let (answer, farm) := farm.answerRow listeners id row
      (driver.answered row answer, farm)
    | .publish row colors =>
      (driver.sent, farm.publish listeners (.lineComputed row cursor.size colors))
    | .stopped => (driver, farm)

/-- A driver's turn: its steps until the row that it claims is published. -/
def turn (render id : Nat) (driver : RowDriver) (farm : Farm ε σ Audience) :
    RowDriver × Farm ε σ Audience :=
  let (driver, farm) := stepDriver listeners render id driver farm
  let (driver, farm) := stepDriver listeners render id driver farm
  let (driver, farm) := stepDriver listeners render id driver farm
  match driver.phase with
  | .publish .. => stepDriver listeners render id driver farm
  | _ => (driver, farm)

/-- A turn of every driver, the first being that of worker `id`. -/
def turns (render : Nat) :
    Nat → List RowDriver → Farm ε σ Audience → List RowDriver × Farm ε σ Audience
  | _, [], farm => ([], farm)
  | id, driver :: rest, farm =>
    let (driver, farm) := turn listeners render id driver farm
    let (others, last) := turns render (id + 1) rest farm
    (driver :: others, last)

/-- Rounds of turns until every driver has stopped, at most `count` of them. -/
def rounds (render : Nat) :
    Nat → List RowDriver → Farm ε σ Audience → List RowDriver × Farm ε σ Audience
  | 0, drivers, farm => (drivers, farm)
  | count + 1, drivers, farm =>
    if drivers.all RowDriver.isStopped then (drivers, farm)
    else
      let (drivers, farm) := turns listeners render 0 drivers farm
      rounds render count drivers farm

/-- Nanoseconds in a millisecond. -/
def tick : Nat := 1000000

/-- Renders a scene that the workers hold. In each round a driver that has not stopped claims a
row or finds none, so one round more than there are rows stops them all. -/
def render (farm : Farm ε σ Audience) (size : Dimensions) : RenderSummary × Farm ε σ Audience :=
  let began := farm.now
  let (render, farm) := farm.beginRender size
  let farm := farm.publish listeners (.sceneLoaded size)
  let drivers := List.replicate farm.workers.size RowDriver.start
  let (drivers, farm) := rounds listeners render (size.height.toNat + 1) drivers farm
  let cancelled := match farm.cursors[render]? with
    | some cursor => cursor.cancelled && 0 < cursor.remaining
    | none => false
  let farm := farm.endRender render
  let farm := farm.publish listeners (.sceneRendered ((farm.now - began) * tick))
  (⟨drivers.foldl (fun total driver => total + driver.published) 0, cancelled⟩, farm)

/-- Evaluates a source text and renders the scene that worker 0 made of it, if any. -/
def run (farm : Farm ε σ Audience) (source : String) :
    Except Failure Outcome × Farm ε σ Audience :=
  match farm.evaluate listeners source with
  | (.error failure, farm) => (.error failure, farm)
  | (.ok outcome, farm) =>
    match outcome.scene with
    | some size => (.ok outcome, (farm.render listeners size).2)
    | none => (.ok outcome, farm)

end Farm

end RenderFarm
