import RenderFarm.Pool.Config
import RenderFarm.Worker

/-!
# Pools of workers

A pool starts its workers together, each with an engine of its own, and is there only if every
engine loads. Otherwise the failure is that of the lowest-numbered worker without an engine.
-/

namespace RenderFarm.Pool

variable {ε σ : Type}

/-- The worker at an index. -/
def get (workers : Array (Worker ε σ)) (id : Nat) : Except Failure (Worker ε σ) :=
  match workers[id]? with
  | some worker => .ok worker
  | none => .error (.noSuchWorker id)

variable [Scene σ] [Evaluator ε σ]

/-- A worker with its listener, if any, and its thread started; the ticket is for the load. -/
def launch (window : Nat) (observer : Option String) (load : Load ε) (id : Nat) :
    Nat × Worker ε σ :=
  let worker : Worker ε σ := .create id window
  (match observer with
    | some listener => worker.subscribe listener
    | none => worker).start load

/-- What the reply to the load of worker `id` says. -/
def loadFailure? (id : Nat) : Option Reply → Option Failure
  | some (.loaded none) => none
  | some (.loaded (some message)) => some (.engineNotLoaded id message)
  | _ => some (.disconnected id)

/-- A worker whose thread has done what it can to load its engine. -/
structure Launched (ε σ : Type) where
  worker : Worker ε σ
  effects : List Effect
  failure : Option Failure

def launched (now window : Nat) (observer : Option String) (load : Load ε) (id : Nat) :
    Launched ε σ :=
  let (ticket, started) := launch window observer load id
  let (settled, effects) := started.settle now
  match settled.collect? ticket with
  | some (reply, worker) => ⟨worker, effects, loadFailure? id (some reply)⟩
  | none => ⟨settled, effects, loadFailure? id none⟩

/-- The workers of a pool, and what was seen of their loads in the order of the workers. -/
def spawn (now : Nat) (config : Pool.Config) (observer : Nat → Option String)
    (load : Nat → Load ε) : Except Failure (Array (Worker ε σ) × List Effect) :=
  let all := (List.range config.size).map fun id =>
    launched now config.idleWindow (observer id) (load id) id
  match all.findSome? (·.failure) with
  | some failure => .error failure
  | none => .ok ((all.map (·.worker)).toArray, all.flatMap (·.effects))

end RenderFarm.Pool
