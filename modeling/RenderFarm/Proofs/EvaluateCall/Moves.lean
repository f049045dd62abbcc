import Mathlib.Logic.Function.Basic
import RenderFarm.Proofs.Event.Broadcast
import RenderFarm.Proofs.Evaluations.Moves
import RenderFarm.Proofs.Worker.Output

/-!
# A call of evaluate, move by move

`Evaluations` takes what an engine writes, and each publication, in one piece. An `EvaluateCall` takes them
apart. A worker that evaluates writes one text after the other, and takes the step of its thread when all of
them are written, be it that the thread replies then or that it ends. Each text that worker 0 writes is
published by the thread of the worker, from one subscription to the next; the others write to nobody. The
thread that evaluates publishes a failure in the same way before it returns. Between two of these steps any
other thread may move, so that a worker may be sent requests while its engine writes.
-/

namespace RenderFarm

/-- The message that a call is to publish before it returns. -/
def Call.Phase.failure? : Call.Phase → Option String
  | .waiting [] outcomes => Farm.firstError outcomes
  | .waiting (_ :: _) _ | .sending .. | .returned _ => none

/-- Where a call stands when it has published its failure. -/
def Call.Phase.conclude : Call.Phase → Call.Phase
  | .waiting [] (primary :: _) => .returned (.ok primary)
  | phase => phase

/-- Where the engine of a worker stands that writes. -/
structure EvaluateCall.Writing where
  /-- The texts that are still to be written. -/
  rest : List String
  /-- The publication of the text that was written last, if it is under way. -/
  telling : Option Broadcast

structure EvaluateCall (ε σ Audience : Type) where
  farm : Farm ε σ Audience
  source : String
  phase : Call.Phase
  /-- The publication of the failure, if it is under way. -/
  telling : Option Broadcast
  /-- The engines that write, by the number of their worker. -/
  writing : Nat → Option EvaluateCall.Writing

namespace EvaluateCall

/-- The next step of one of the threads around a call. -/
inductive Move where
  /-- The thread that evaluates takes a step. -/
  | call
  /-- The thread of worker `id` takes a step. -/
  | work (id : Nat)

variable {ε σ Audience : Type}

/-- A call about to begin. -/
def start (farm : Farm ε σ Audience) (source : String) : EvaluateCall ε σ Audience :=
  ⟨farm, source, (Call.start farm.workers.size source).phase, none, fun _ => none⟩

def write (call : EvaluateCall ε σ Audience) (id : Nat) (writing : Option Writing) :
    EvaluateCall ε σ Audience :=
  { call with writing := Function.update call.writing id writing }

variable [Scene σ] [Evaluator ε σ] (listeners : Listeners ε σ Audience)

def advance (call : EvaluateCall ε σ Audience) : EvaluateCall ε σ Audience :=
  match call.telling with
  | some telling =>
    match telling.step listeners.onEvent call.farm with
    | (farm, some telling) => { call with farm := farm, telling := some telling }
    | (farm, none) => { call with farm := farm, telling := none, phase := call.phase.conclude }
  | none =>
    match call.phase.failure? with
    | some message => { call with telling := some (.start call.farm.bus (.evalError message)) }
    | none =>
      let (phase, farm) := Farm.stepCall listeners call.source call.phase call.farm
      { call with phase := phase, farm := farm }

/-- The thread of a worker takes its step, after all that it writes has been written. -/
def commit (call : EvaluateCall ε σ Audience) (id : Nat) : EvaluateCall ε σ Audience :=
  match call.farm.workers[id]? with
  | none => call
  | some worker =>
    match worker.step? call.farm.now with
    | none => call
    | some (next, effects) =>
      { call.write id none with
        farm := (effects.filter (·.text?.isNone)).foldl (Farm.perform listeners id)
          (call.farm.setWorker id next) }

def work (call : EvaluateCall ε σ Audience) (id : Nat) : EvaluateCall ε σ Audience :=
  match call.writing id with
  | some ⟨rest, some telling⟩ =>
    let (farm, telling) := telling.step listeners.onEvent call.farm
    { call.write id (some ⟨rest, telling⟩) with farm := farm }
  | some ⟨text :: rest, none⟩ =>
    -- Every worker evaluates the same texts, so only the output of worker 0 is published.
    let telling := if id = 0 then some (.start call.farm.bus (.stdoutWritten text)) else none
    call.write id (some ⟨rest, telling⟩)
  | some ⟨[], none⟩ => call.commit listeners id
  | none =>
    match (call.farm.workers[id]?.map Worker.texts).getD [] with
    | [] => call.commit listeners id
    | texts => call.write id (some ⟨texts, none⟩)

def step (call : EvaluateCall ε σ Audience) : Move → EvaluateCall ε σ Audience
  | .call => call.advance listeners
  | .work id => call.work listeners id

/-- Makes moves one after the other. -/
def play (call : EvaluateCall ε σ Audience) (moves : List Move) : EvaluateCall ε σ Audience :=
  moves.foldl (step listeners) call

theorem play_append (call : EvaluateCall ε σ Audience) (before after : List Move) :
    call.play listeners (before ++ after) = (call.play listeners before).play listeners after :=
  List.foldl_append

end EvaluateCall

end RenderFarm
