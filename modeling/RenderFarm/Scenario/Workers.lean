import RenderFarm.Engine.Prepared
import RenderFarm.Pool
import RenderFarm.Scenario.Order

/-!
# Workers without a farm

Scenarios for a single worker handle and for a pool of workers. What their engines write goes to an
output sink. Threads come to rest after every step.
-/

namespace RenderFarm.Scenario

abbrev PreparedWorker := Worker Prepared.Engine Prepared.Drawing

/-- The tag of the output sink. -/
def sink : String := "out"

/-- The entry that an effect makes in a log. -/
def Entry.ofEffect : Effect → Entry
  | .reported report => ⟨report.listener, .entered report.value⟩
  | .wrote text => ⟨sink, .wrote text⟩

/-- Sends a request and waits until the worker is at rest; gives the answer and what was seen. -/
def ask (now : Nat) (worker : PreparedWorker) (request : Request) :
    Answer × List Effect × PreparedWorker :=
  let (ticket, sent) := worker.send request
  let (settled, effects) := sent.settle now
  match settled.collect? ticket with
  | some (reply, next) => (.ofReply (.ok reply), effects, next)
  | none => (.failed (.disconnected worker.id), effects, settled)

/-! ## One worker -/

inductive WorkerStep where
  | init
  | request (request : Request)
  | send (requests : List Request)
  | collect
  | drop
  | subscribe (tag : String)
  | unsubscribe
  | wait (milliseconds : Nat)
  | describe

/-- A worker handle on a clock. -/
structure WorkerBench where
  now : Nat
  worker : PreparedWorker
  script : Prepared.Script
  dropped : Bool
  /-- Tickets of requests whose replies were not asked for yet, in order. -/
  outstanding : List Nat
  /-- What was seen and not shown yet. -/
  unseen : List Entry

namespace WorkerBench

def start (id window : Nat) (script : Prepared.Script) : WorkerBench :=
  ⟨0, .create id window, script, false, [], []⟩

/-- The bench with its worker at rest. -/
def settle (bench : WorkerBench) (worker : PreparedWorker) : WorkerBench :=
  let (settled, effects) := worker.settle bench.now
  { bench with worker := settled, unseen := bench.unseen ++ effects.map Entry.ofEffect }

/-- The reply to a ticket. -/
def reply (bench : WorkerBench) (ticket : Nat) : Answer × WorkerBench :=
  match bench.worker.collect? ticket with
  | some (reply, worker) => (.ofReply (.ok reply), { bench with worker := worker })
  | none => (.failed (.disconnected bench.worker.id), bench)

def sendAll : List Request → WorkerBench → WorkerBench
  | [], bench => bench
  | request :: rest, bench =>
    let (ticket, worker) := bench.worker.send request
    sendAll rest { bench with worker := worker, outstanding := bench.outstanding ++ [ticket] }

def collectAll : List Nat → WorkerBench → List Answer × WorkerBench
  | [], bench => ([], bench)
  | ticket :: rest, bench =>
    let (answer, next) := bench.reply ticket
    let (answers, last) := collectAll rest next
    (answer :: answers, last)

def act (bench : WorkerBench) : WorkerStep → Answer × WorkerBench
  | .init =>
    let (ticket, started) := bench.worker.start (bench.script.load bench.worker.id)
    (bench.settle started).reply ticket
  | .request request =>
    let (answer, effects, worker) := ask bench.now bench.worker request
    (answer,
      { bench with worker := worker, unseen := bench.unseen ++ effects.map Entry.ofEffect })
  | .send requests =>
    let sent := sendAll requests bench
    (.list (requests.map fun _ => .text bench.worker.describeReply), sent.settle sent.worker)
  | .collect =>
    let (answers, next) := collectAll bench.outstanding bench
    (.list answers, { next with outstanding := [] })
  | .drop => (.nothing, { bench with dropped := true })
  | .subscribe tag => (.nothing, { bench with worker := bench.worker.subscribe tag })
  | .unsubscribe => (.nothing, { bench with worker := bench.worker.unsubscribe })
  | .wait milliseconds =>
    let later := bench.now + milliseconds
    let (machine, report) := bench.worker.machine.elapse later
    let seen := report.toList.map fun report => Entry.ofEffect (.reported report)
    (.nothing,
      { bench with
        now := later
        worker := { bench.worker with machine := machine }
        unseen := bench.unseen ++ seen })
  | .describe => (.text bench.worker.describe, bench)

/-- A dropped handle only lets replies be collected. -/
def actOnDropped (bench : WorkerBench) : WorkerStep → Answer × WorkerBench
  | .collect => bench.act .collect
  | _ => (.nothing, bench)

/-- Whether replies are outstanding on a handle that still exists; until they are collected, nothing
is shown. -/
def isBusy (bench : WorkerBench) : Bool :=
  !bench.dropped && !bench.outstanding.isEmpty

/-- One step: its answer, the state of the worker if that can be told, and the log. -/
def step (bench : WorkerBench) (step : WorkerStep) :
    (Answer × Option Worker.State × List Entry) × WorkerBench :=
  let (answer, next) := if bench.dropped then bench.actOnDropped step else bench.act step
  if next.isBusy then ((answer, none, []), next)
  else
    let state := if next.dropped then none else some next.worker.state
    ((answer, state, next.unseen), { next with unseen := [] })

end WorkerBench

/-! ## A pool -/

inductive PoolStep where
  | info
  | get (id : Nat)
  | all (request : Request)
  | one (id : Nat) (request : Request)

namespace PoolBench

/-- The entries for what was seen of worker `id`. Only worker 0 has the output sink. -/
def entries (id : Nat) (effects : List Effect) : List Entry :=
  (effects.filter fun effect =>
    match effect with
    | .wrote _ => id == 0
    | .reported _ => true).map Entry.ofEffect

/-- Asks worker `id`. -/
def askOne (workers : Array PreparedWorker) (request : Request) (id : Nat) :
    Answer × List Entry × Array PreparedWorker :=
  match workers[id]? with
  | none => (.failed (.noSuchWorker id), [], workers)
  | some worker =>
    let (answer, effects, next) := ask 0 worker request
    (answer, entries id effects, workers.setIfInBounds id next)

/-- Asks several workers, all before any answer is awaited. Workers share nothing, so asking one
after the other comes to the same. -/
def askAll (request : Request) :
    List Nat → Array PreparedWorker → List Answer × List Entry × Array PreparedWorker
  | [], workers => ([], [], workers)
  | id :: ids, workers =>
    let (answer, seen, next) := askOne workers request id
    let (answers, more, last) := askAll request ids next
    (answer :: answers, seen ++ more, last)

def step (workers : Array PreparedWorker) :
    PoolStep → (Answer × List Entry) × Array PreparedWorker
  | .info => ((.pool (workers.toList.map (·.id)), []), workers)
  | .get id =>
    let answer := match Pool.get workers id with
      | .ok worker => Answer.text worker.describe
      | .error failure => .failed failure
    ((answer, []), workers)
  | .all request =>
    let (answers, seen, next) := askAll request (List.range workers.size) workers
    ((.list answers, byTag seen), next)
  | .one id request =>
    let (answer, seen, next) := askOne workers request id
    ((answer, byTag seen), next)

def playAll : List PoolStep → Array PreparedWorker → List (Answer × List Entry)
  | [], _ => []
  | first :: rest, workers =>
    let (seen, next) := step workers first
    seen :: playAll rest next

/-- Starts a pool and plays the steps; gives the log of the start too. -/
def play (config : Pool.Config) (observer : Nat → Option String) (script : Prepared.Script)
    (steps : List PoolStep) : Except Failure (List Entry × List (Answer × List Entry)) := do
  let (workers, effects) ← Pool.spawn 0 config observer script.load
  return (byTag (effects.map Entry.ofEffect), playAll steps workers)

end PoolBench

end RenderFarm.Scenario
