import RenderFarm.Event.Bus
import RenderFarm.RowDriver
import RenderFarm.Worker

/-!
# The farm

A farm is a pool of workers, an event bus, and the cursors of the renders begun so far, of which at
most one is the active render. Time is a clock that only waiting moves.

Listeners are part of the farm's surroundings: `Audience` is whatever they keep, and `Listeners`
says what they do. An event callback may do anything to the farm; a state listener only takes note.
-/

namespace RenderFarm

structure Farm (ε σ Audience : Type) where
  now : Nat
  workers : Array (Worker ε σ)
  bus : EventBus
  /-- The cursors of all renders, in the order in which they began. -/
  cursors : Array RowCursor
  /-- The index of the render that a cancel would stop. -/
  active : Option Nat
  audience : Audience

/-- What listeners do when they are called. -/
structure Listeners (ε σ Audience : Type) where
  onEvent : SubscriptionId → Event → Farm ε σ Audience → Farm ε σ Audience
  onState : StateReport → Audience → Audience

namespace Farm

variable {ε σ Audience : Type}

def start (now : Nat) (workers : Array (Worker ε σ)) (audience : Audience) :
    Farm ε σ Audience :=
  ⟨now, workers, .empty, #[], none, audience⟩

instance : EventBus.Holder (Farm ε σ Audience) :=
  ⟨Farm.bus, fun farm bus => { farm with bus := bus }, fun _ _ => rfl⟩

variable (listeners : Listeners ε σ Audience)

def publish (event : Event) (farm : Farm ε σ Audience) : Farm ε σ Audience :=
  EventBus.publish listeners.onEvent event farm

def setWorker (farm : Farm ε σ Audience) (id : Nat) (worker : Worker ε σ) : Farm ε σ Audience :=
  { farm with workers := farm.workers.setIfInBounds id worker }

def notice (report : StateReport) (farm : Farm ε σ Audience) : Farm ε σ Audience :=
  { farm with audience := listeners.onState report farm.audience }

/-- What follows from an effect of worker `id`. Every worker evaluates the same texts, so only the
output of worker 0 is published. -/
def perform (id : Nat) (farm : Farm ε σ Audience) : Effect → Farm ε σ Audience
  | .reported report => farm.notice listeners report
  | .wrote text => if id = 0 then farm.publish listeners (.stdoutWritten text) else farm

/-! ## Time -/

/-- Tells the listener of worker `id` what is due by the time `now`. -/
def elapse (now : Nat) (farm : Farm ε σ Audience) (id : Nat) : Farm ε σ Audience :=
  match farm.workers[id]? with
  | none => farm
  | some worker =>
    let (machine, report) := worker.machine.elapse now
    let farm := farm.setWorker id { worker with machine := machine }
    match report with
    | some report => farm.notice listeners report
    | none => farm

/-- Lets time pass. What is due meanwhile is told in the order of the due times. -/
def wait (farm : Farm ε σ Audience) (milliseconds : Nat) : Farm ε σ Audience :=
  let later := farm.now + milliseconds
  let dueTimes := (List.range farm.workers.size).filterMap fun id =>
    (farm.workers[id]?.bind (·.machine.reporter.nextDue)).map fun due => (due, id)
  let order := dueTimes.mergeSort fun a b => a.1 ≤ b.1
  order.foldl (fun farm entry => farm.elapse listeners later entry.2) { farm with now := later }

/-! ## Requests -/

/-- Queues a request for worker `id`; gives its ticket. -/
def send (farm : Farm ε σ Audience) (id : Nat) (request : Request) :
    Option Nat × Farm ε σ Audience :=
  match farm.workers[id]? with
  | none => (none, farm)
  | some worker =>
    let (ticket, next) := worker.send request
    (some ticket, farm.setWorker id next)

variable [Scene σ] [Evaluator ε σ]

/-- Lets the thread of worker `id` take up to `count` steps, until the reply to a ticket is there or
the thread has nothing to do. Without a reply the worker is disconnected. -/
def await (id ticket : Nat) :
    Nat → Farm ε σ Audience → Except Failure Reply × Farm ε σ Audience
  | count, farm =>
    match farm.workers[id]? with
    | none => (.error (.noSuchWorker id), farm)
    | some worker =>
      match worker.collect? ticket with
      | some (reply, next) => (.ok reply, farm.setWorker id next)
      | none =>
        match count, worker.step? farm.now with
        | count + 1, some (next, effects) =>
          await id ticket count (effects.foldl (perform listeners id) (farm.setWorker id next))
        | _, _ => (.error (.disconnected id), farm)

/-- Waits for the reply to a ticket of worker `id`. -/
def receive (farm : Farm ε σ Audience) (id ticket : Nat) :
    Except Failure Reply × Farm ε σ Audience :=
  let steps := (farm.workers[id]?.map Worker.work).getD 0
  await listeners id ticket steps farm

/-- Sends a request to worker `id` and waits for the reply. -/
def request (farm : Farm ε σ Audience) (id : Nat) (request : Request) :
    Except Failure Reply × Farm ε σ Audience :=
  match farm.send id request with
  | (none, farm) => (.error (.noSuchWorker id), farm)
  | (some ticket, farm) => farm.receive listeners id ticket

/-- Lets worker `id` take up to `count` steps. -/
def settleWorker (id : Nat) : Nat → Farm ε σ Audience → Farm ε σ Audience
  | 0, farm => farm
  | count + 1, farm =>
    match farm.workers[id]?.bind (·.step? farm.now) with
    | some (next, effects) =>
      settleWorker id count (effects.foldl (perform listeners id) (farm.setWorker id next))
    | none => farm

/-- Lets every thread work until it has nothing to do. -/
def settle (farm : Farm ε σ Audience) : Farm ε σ Audience :=
  (List.range farm.workers.size).foldl
    (fun farm id =>
      settleWorker listeners id ((farm.workers[id]?.map Worker.work).getD 0) farm)
    farm

/-- The names that worker 0 knows; none when it is gone. -/
def names (farm : Farm ε σ Audience) : List String × Farm ε σ Audience :=
  match farm.request listeners 0 .names with
  | (.ok (.names names), farm) => (names, farm)
  | (_, farm) => ([], farm)

end Farm

end RenderFarm
