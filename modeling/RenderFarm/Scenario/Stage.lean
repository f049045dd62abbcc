import RenderFarm.Engine.Prepared
import RenderFarm.Pool
import RenderFarm.Scenario.Order

/-!
# Scenarios on a farm

A stage is a farm whose listeners follow a scenario. `Stage.carryOut` says what a command does,
given what listeners do; `obey` ties the knot, since listeners carry out commands themselves. Its
first argument bounds how deep commands nest, and `Command.depths` is enough for a scenario.
-/

namespace RenderFarm.Scenario

/-- What stands behind a callback: a list of reactions, each with the number of times it ran, or a
canvas. -/
inductive Role where
  | script (tag : String) (reactions : List (Reaction × Nat))
  | canvas (canvas : Canvas)

/-- What the listeners of a scenario keep. -/
structure Audience where
  log : Array Entry
  /-- Subscriptions by tag, the latest first. -/
  tags : List (String × SubscriptionId)
  roles : List (SubscriptionId × Role)

namespace Audience

def empty : Audience := ⟨#[], [], []⟩

def note (audience : Audience) (tag : String) (happening : Happening) : Audience :=
  { audience with log := audience.log.push ⟨tag, happening⟩ }

/-- The latest subscription under a tag. -/
def find? (audience : Audience) (tag : String) : Option SubscriptionId :=
  audience.tags.lookup tag

def name (audience : Audience) (tag : String) (id : SubscriptionId) : Audience :=
  { audience with tags := (tag, id) :: audience.tags }

def role? (audience : Audience) (id : SubscriptionId) : Option Role :=
  audience.roles.lookup id

def addRole (audience : Audience) (id : SubscriptionId) (role : Role) : Audience :=
  { audience with roles := (id, role) :: audience.roles }

def setRole (audience : Audience) (id : SubscriptionId) (role : Role) : Audience :=
  { audience with roles := audience.roles.map fun entry =>
      if entry.1 = id then (id, role) else entry }

end Audience

/-- A farm that follows a scenario. -/
abbrev Stage := Farm Prepared.Engine Prepared.Drawing Audience

abbrev StageListeners := Listeners Prepared.Engine Prepared.Drawing Audience

namespace Stage

def note (stage : Stage) (tag : String) (happening : Happening) : Stage :=
  { stage with audience := stage.audience.note tag happening }

/-! ## Listeners -/

/-- Carries out the commands of a reaction, telling what came of each. -/
def react (obey : Command → Stage → Answer × Stage) (tag : String) (commands : List Command)
    (stage : Stage) : Stage :=
  commands.foldl
    (fun stage command =>
      let (answer, stage) := obey command stage
      note stage tag (.did answer))
    stage

/-- Runs reaction number `index` of a subscription if the event fits and the limit is not reached.
The run is counted before its commands are carried out. -/
def runReaction (obey : Command → Stage → Answer × Stage) (id : SubscriptionId)
    (event : Event) (stage : Stage) (index : Nat) : Stage :=
  match stage.audience.role? id with
  | some (.script tag reactions) =>
    match reactions[index]? with
    | some (reaction, ran) =>
      if reaction.fits event && ran < reaction.limit then
        let role := Role.script tag (reactions.set index (reaction, ran + 1))
        react obey tag reaction.commands { stage with audience := stage.audience.setRole id role }
      else stage
    | none => stage
  | _ => stage

/-- What a callback does with an event. -/
def called (obey : Command → Stage → Answer × Stage) (id : SubscriptionId) (event : Event)
    (stage : Stage) : Stage :=
  match stage.audience.role? id with
  | some (.script tag reactions) =>
    (List.range reactions.length).foldl (runReaction obey id event) (note stage tag (.saw event))
  | some (.canvas canvas) =>
    { stage with audience := stage.audience.setRole id (.canvas (canvas.apply event)) }
  | none => stage

def listeners (obey : Command → Stage → Answer × Stage) : StageListeners :=
  ⟨called obey, fun report audience => audience.note report.listener (.entered report.value)⟩

/-! ## Commands -/

/-- Makes a callback subscription under a tag. -/
def subscribe (stage : Stage) (tag : String) (kinds : EventKinds) (role : Role) :
    Answer × Stage :=
  let (id, bus) := stage.bus.subscribe kinds
  (.text id.describe,
    { stage with bus := bus, audience := (stage.audience.name tag id).addRole id role })

/-- Opens a channel under a tag; a receiver that the tag had before is dropped. -/
def openChannel (stage : Stage) (tag : String) (kinds : EventKinds) : Answer × Stage :=
  let bus := match stage.audience.find? tag with
    | some old => (stage.bus.dropReceiver old).2
    | none => stage.bus
  let (id, bus) := bus.openChannel kinds
  (.text id.describe, { stage with bus := bus, audience := stage.audience.name tag id })

/-- Acts on the subscription under a tag, if there is one. -/
def withTag (stage : Stage) (tag : String) (missing : Answer)
    (act : SubscriptionId → Answer × EventBus) : Answer × Stage :=
  match stage.audience.find? tag with
  | none => (missing, stage)
  | some id =>
    let (answer, bus) := act id
    (answer, { stage with bus := bus })

/-- The canvas under a tag. -/
def canvas? (stage : Stage) (tag : String) : Option Canvas :=
  match (stage.audience.find? tag).bind stage.audience.role? with
  | some (.canvas canvas) => some canvas
  | _ => none

/-- Acts on worker `id`, if there is one. -/
def withWorker (stage : Stage) (id : Nat)
    (act : Worker Prepared.Engine Prepared.Drawing →
      Answer × Worker Prepared.Engine Prepared.Drawing) : Answer × Stage :=
  match stage.workers[id]? with
  | none => (.failed (.noSuchWorker id), stage)
  | some worker =>
    let (answer, next) := act worker
    (answer, stage.setWorker id next)

/-- Carries out a command, with `listeners` for what listeners do. -/
def carryOut (listeners : StageListeners) (command : Command) (stage : Stage) : Answer × Stage :=
  match command with
  | .subscribe tag kinds reactions =>
    stage.subscribe tag kinds (.script tag (reactions.map fun reaction => (reaction, 0)))
  | .openChannel tag kinds => stage.openChannel tag kinds
  | .receive tag =>
    stage.withTag tag .nothing fun id =>
      let (events, bus) := stage.bus.receive id
      ((events.map Answer.events).getD .nothing, bus)
  | .dropReceiver tag =>
    stage.withTag tag (.flag false) fun id =>
      let (was, bus) := stage.bus.dropReceiver id
      (.flag was, bus)
  | .unsubscribe tag =>
    stage.withTag tag (.flag false) fun id =>
      let (was, bus) := stage.bus.unsubscribe id
      (.flag was, bus)
  | .publish event => (.count event.kind.bit.toNat, Farm.publish listeners event stage)
  | .countSubscriptions => (.count stage.bus.count, stage)
  | .describeBus => (.text stage.bus.describe, stage)
  | .attachCanvas tag => stage.subscribe tag .render (.canvas .empty)
  | .showCanvas tag => (((stage.canvas? tag).map Answer.canvas).getD .nothing, stage)
  | .evaluate source =>
    let (result, stage) := Farm.evaluate listeners stage source
    (.ofOutcome result, stage)
  | .run source =>
    let (result, stage) := Farm.run listeners stage source
    (.ofOutcome result, stage)
  | .render size =>
    let (report, stage) := Farm.render listeners stage size
    (.report report, stage)
  | .cancel =>
    let (was, stage) := stage.cancel
    (.flag was, stage)
  | .isRendering => (.flag stage.isRendering, stage)
  | .names =>
    let (names, stage) := Farm.names listeners stage
    (.names names, stage)
  | .countWorkers => (.count stage.workers.size, stage)
  | .stateOf id => stage.withWorker id fun worker => (.state worker.state, worker)
  | .listenTo id tag => stage.withWorker id fun worker => (.text "ok", worker.subscribe tag)
  | .ignore id => stage.withWorker id fun worker => (.text "ok", worker.unsubscribe)
  | .request id request =>
    let (reply, stage) := Farm.request listeners stage id request
    (.ofReply reply, stage)
  | .wait milliseconds => (.nothing, Farm.wait listeners stage milliseconds)
  | .unknown => (.nothing, stage)

/-- Carries out a command whose reactions nest less than `depth` deep. -/
def obey : Nat → Command → Stage → Answer × Stage
  | 0, _, stage => (.nothing, stage)
  | depth + 1, command, stage => carryOut (listeners (obey depth)) command stage

/-! ## Whole scenarios -/

/-- Empties the log. -/
def takeLog (stage : Stage) : List Entry × Stage :=
  (stage.audience.log.toList, { stage with audience := { stage.audience with log := #[] } })

/-- Carries out a scenario; gives each command's answer and what was seen meanwhile. The workers
come to rest between commands. -/
def playAll (depth : Nat) : List Command → Stage → List (Answer × List Entry)
  | [], _ => []
  | command :: rest, stage =>
    let (answer, stage) := obey depth command stage
    let stage := Farm.settle (listeners (obey depth)) stage
    let (log, stage) := takeLog stage
    (answer, log) :: playAll depth rest stage

/-- Brings answers and logs into an order that several workers agree on. -/
def arrange (workers : Nat) (step : Answer × List Entry) : Answer × List Entry :=
  if 1 < workers then (step.1.sortEvents, normalize step.2) else step

/-- Plays a scenario on an event bus without workers. -/
def playBus (commands : List Command) : List (Answer × List Entry) :=
  playAll (Command.depths commands + 1) commands (.start 0 #[] .empty)

/-- The listener that an observed worker has from the start. -/
def observer (observed : Bool) (id : Nat) : Option String :=
  if observed then some s!"state:{id}" else none

/-- Plays a scenario on a farm with a pool of workers; gives the log of the pool's start too. -/
def playFarm (config : Pool.Config) (observed : Bool) (script : Prepared.Script)
    (commands : List Command) : Except Failure (List Entry × List (Answer × List Entry)) := do
  let depth := Command.depths commands + 1
  let (workers, effects) ← Pool.spawn 0 config (observer observed) script.load
  let stage : Stage := .start 0 workers .empty
  let stage := effects.foldl (Farm.perform (listeners (obey depth)) 0) stage
  let (log, stage) := takeLog stage
  let count := workers.size
  return (if 1 < count then normalize log else log,
    (playAll depth commands stage).map (arrange count))

end Stage

end RenderFarm.Scenario
