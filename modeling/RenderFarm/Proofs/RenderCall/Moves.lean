import Mathlib.Logic.Function.Basic
import RenderFarm.Proofs.Event.Broadcast
import RenderFarm.Proofs.Rendering.Moves

/-!
# A call of render, move by move

A `Rendering` is a render seen by its drivers, each of which publishes a row in one piece. A
`RenderCall` is the whole call, from the moment when its cursor is the active one: the thread that
renders first tells that the scene was loaded, then waits for the drivers and makes the report, and at
last tells that the scene was rendered. Every publication, its own and the drivers', goes from one
subscription to the next, and between two of these steps drivers, cancels and other threads may move.

A listener may cancel the render while it is called, in one piece; the cancels that are moves are
those of other threads. A cancel begins only while the render is the active one, and a render cannot
withdraw while a cancel holds the lock.
-/

namespace RenderFarm

/-- Where the thread that renders stands. -/
inductive RenderCall.Stage where
  /-- It tells that the scene was loaded. -/
  | opening (telling : Broadcast)
  /-- It waits for the drivers, and then makes the report. -/
  | driving
  /-- It tells that the scene was rendered. -/
  | ending (summary : RenderSummary) (telling : Broadcast)
  | returned (summary : RenderSummary)
  deriving DecidableEq

structure RenderCall (ε σ Audience : Type) where
  /-- The time when it began. -/
  began : Nat
  rendering : Rendering ε σ Audience
  stage : RenderCall.Stage
  /-- The publications of drivers that are under way, by the number of their worker. -/
  telling : Nat → Option Broadcast

/-- The event with which a driver publishes the row that it has in hand. -/
def Rendering.line? {ε σ Audience : Type} (rendering : Rendering ε σ Audience) (id : Nat) :
    Option Event :=
  match rendering.drivers[id]?, rendering.cursor? with
  | some ⟨.publish row colors, _⟩, some cursor => some (.lineComputed row cursor.size colors)
  | _, _ => none

/-- A driver has published its row, and goes on. -/
def Rendering.conclude {ε σ Audience : Type} (rendering : Rendering ε σ Audience) (id : Nat) :
    Rendering ε σ Audience :=
  match rendering.drivers[id]? with
  | none => rendering
  | some driver =>
    { rendering with
      drivers := rendering.drivers.set id driver.sent
      history :=
        rendering.history ++ (RowDriver.occurrence? id driver.phase driver.sent.phase).toList }

/-- Publishing is over for a driver whatever became of the farm meanwhile. -/
theorem Rendering.conclude_setFarm {ε σ Audience : Type} (rendering : Rendering ε σ Audience)
    (farm : Farm ε σ Audience) (id : Nat) :
    conclude { rendering with farm := farm } id = { rendering.conclude id with farm := farm } := by
  unfold conclude
  dsimp only
  split <;> rfl

namespace RenderCall

/-- The next step of one of the threads around a call. -/
inductive Move (ε σ Audience : Type) where
  /-- The driver of worker `id` takes a step. -/
  | drive (id : Nat)
  /-- The cancel under way makes its next access; if there is none, one begins. -/
  | cancel
  /-- The thread that renders takes a step. -/
  | close
  /-- Another thread does something else to the farm. -/
  | meanwhile (change : Farm ε σ Audience → Farm ε σ Audience)

variable {ε σ Audience : Type}

def farm (call : RenderCall ε σ Audience) : Farm ε σ Audience :=
  call.rendering.farm

def setFarm (call : RenderCall ε σ Audience) (farm : Farm ε σ Audience) :
    RenderCall ε σ Audience :=
  { call with rendering := { call.rendering with farm := farm } }

/-- A call that has made its render the active one. -/
def start (farm : Farm ε σ Audience) (size : Dimensions) : RenderCall ε σ Audience :=
  let (number, begun) := farm.beginRender size
  ⟨farm.now, ⟨begun, number, [], none, .waiting, []⟩,
    .opening (.start begun.bus (.sceneLoaded size)), fun _ => none⟩

def tell (call : RenderCall ε σ Audience) (id : Nat) (telling : Option Broadcast) :
    RenderCall ε σ Audience :=
  { call with telling := Function.update call.telling id telling }

/-- The drivers are put to work. -/
def deploy (call : RenderCall ε σ Audience) : RenderCall ε σ Audience :=
  { call with
    rendering := { call.rendering with
      drivers := List.replicate call.farm.workers.size RowDriver.start }
    stage := .driving }

/-- The render withdraws. -/
def withdraw (call : RenderCall ε σ Audience) (summary : RenderSummary) :
    RenderCall ε σ Audience :=
  let farm := call.farm.endRender call.rendering.number
  { call.setFarm farm with
    stage := .ending summary
      (.start farm.bus (.sceneRendered ((farm.now - call.began) * Farm.tick))) }

variable [Scene σ] [Evaluator ε σ] (listeners : Listeners ε σ Audience)

def drive (call : RenderCall ε σ Audience) (id : Nat) : RenderCall ε σ Audience :=
  match call.telling id with
  | some telling =>
    match telling.step listeners.onEvent call.farm with
    | (farm, some telling) => (call.setFarm farm).tell id (some telling)
    | (farm, none) =>
      let told := (call.setFarm farm).tell id none
      { told with rendering := told.rendering.conclude id }
  | none =>
    match call.rendering.line? id with
    | some event => call.tell id (some (.start call.farm.bus event))
    | none => { call with rendering := call.rendering.drive listeners id }

def close (call : RenderCall ε σ Audience) : RenderCall ε σ Audience :=
  match call.stage with
  | .opening telling =>
    match telling.step listeners.onEvent call.farm with
    | (farm, some telling) => { call.setFarm farm with stage := .opening telling }
    | (farm, none) => (call.setFarm farm).deploy
  | .driving =>
    match call.rendering.report?, call.rendering.cancelling with
    | none, _ => { call with rendering := call.rendering.step listeners .close }
    | some summary, none => call.withdraw summary
    | some _, some _ => call
  | .ending summary telling =>
    match telling.step listeners.onEvent call.farm with
    | (farm, some telling) => { call.setFarm farm with stage := .ending summary telling }
    | (farm, none) => { call.setFarm farm with stage := .returned summary }
  | .returned _ => call

/-- Whether a cancel can reach the render. -/
def isExposed (call : RenderCall ε σ Audience) : Bool :=
  call.rendering.cancelling.isSome || call.farm.active == some call.rendering.number

def step (call : RenderCall ε σ Audience) : Move ε σ Audience → RenderCall ε σ Audience
  | .drive id => call.drive listeners id
  | .cancel =>
    if call.isExposed then { call with rendering := call.rendering.step listeners .cancel } else call
  | .close => call.close listeners
  | .meanwhile change => call.setFarm (change call.farm)

/-- A driver goes on with its publication. -/
theorem drive_of_hand {call : RenderCall ε σ Audience} {id : Nat} {telling next : Broadcast}
    (told : call.telling id = some telling) {farm : Farm ε σ Audience}
    (stepped : telling.step listeners.onEvent call.farm = (farm, some next)) :
    call.drive listeners id = (call.setFarm farm).tell id (some next) := by
  simp only [drive, told, stepped]

/-- A driver ends its publication, whatever became of the farm meanwhile. -/
theorem drive_of_end {call : RenderCall ε σ Audience} {id : Nat} {telling : Broadcast}
    (told : call.telling id = some telling) {farm : Farm ε σ Audience}
    (stepped : telling.step listeners.onEvent call.farm = (farm, none)) :
    call.drive listeners id =
      { call.tell id none with rendering := { call.rendering.conclude id with farm := farm } } := by
  rw [← Rendering.conclude_setFarm]
  simp only [drive, told, stepped]
  rfl

/-- Makes moves one after the other. -/
def play (call : RenderCall ε σ Audience) (moves : List (Move ε σ Audience)) :
    RenderCall ε σ Audience :=
  moves.foldl (step listeners) call

theorem play_append (call : RenderCall ε σ Audience) (before after : List (Move ε σ Audience)) :
    call.play listeners (before ++ after) = (call.play listeners before).play listeners after :=
  List.foldl_append

end RenderCall

end RenderFarm
