import RenderFarm.Farm.Evaluate
import RenderFarm.Proofs.Worker.Queue

/-!
# Evaluations side by side

`Farm.evaluate` queues a text for one worker after the other and then waits for their replies. It
holds no lock, so that calls of several threads, and the threads of the workers, may take turns in
any order. `Evaluations` are such calls under way, a `Move` is the next access of one of the threads,
and `play` makes the moves of a list in order. A move of a thread that has nothing to do, or that
waits, changes nothing.
-/

namespace RenderFarm

/-- Where a call stands that evaluates a text on every worker. -/
inductive Call.Phase where
  /-- The text is still to be queued for the workers `unsent`; the others have given tickets. -/
  | sending (unsent : List Nat) (tickets : List (Nat × Nat))
  /-- The replies to the tickets are still to come; others have come with these outcomes. -/
  | waiting (tickets : List (Nat × Nat)) (outcomes : List Outcome)
  | returned (result : Except Failure Outcome)

/-- A call that evaluates a text on every worker. -/
structure Call where
  source : String
  phase : Call.Phase

namespace Call

/-- A call to so many workers. -/
def start (count : Nat) (source : String) : Call :=
  ⟨source, .sending (List.range count) []⟩

/-- The workers that are still to be sent the text. -/
def unsent (call : Call) : List Nat :=
  match call.phase with
  | .sending unsent _ => unsent
  | .waiting .. | .returned _ => []

/-- The tickets of the replies that are still to come, each with its worker. -/
def tickets (call : Call) : List (Nat × Nat) :=
  match call.phase with
  | .sending _ tickets | .waiting tickets _ => tickets
  | .returned _ => []

def isReturned (call : Call) : Bool :=
  match call.phase with
  | .returned _ => true
  | .sending .. | .waiting .. => false

/-- A call that has returned has nothing left to do. -/
theorem settled_of_isReturned {call : Call} (returned : call.isReturned) :
    call.unsent = [] ∧ call.tickets = [] := by
  obtain ⟨source, phase⟩ := call
  cases phase with
  | returned result => exact ⟨rfl, rfl⟩
  | sending | waiting => cases returned

end Call

namespace Farm

variable {ε σ Audience : Type} [Scene σ] [Evaluator ε σ] (listeners : Listeners ε σ Audience)

/-- Takes the outcome under a ticket of worker `id`; none as long as it may still come. -/
def poll? (farm : Farm ε σ Audience) (id ticket : Nat) :
    Option (Except Failure Outcome × Farm ε σ Audience) :=
  match farm.workers[id]? with
  | none => some (.error (.noSuchWorker id), farm)
  | some worker =>
    match worker.collect? ticket with
    | some (.outcome outcome, next) => some (.ok outcome, farm.setWorker id next)
    | some (_, next) => some (.error (.disconnected id), farm.setWorker id next)
    | none =>
      if (worker.step? farm.now).isSome then none else some (.error (.disconnected id), farm)

/-- The next access of a call. -/
def stepCall (source : String) (phase : Call.Phase) (farm : Farm ε σ Audience) :
    Call.Phase × Farm ε σ Audience :=
  match phase with
  | .sending (id :: unsent) tickets =>
    let (ticket, farm) := farm.send id (.evaluate source)
    (.sending unsent (tickets ++ (ticket.map (Prod.mk id)).toList), farm)
  | .sending [] tickets => (.waiting tickets [], farm)
  | .waiting ((id, ticket) :: rest) outcomes =>
    match farm.poll? id ticket with
    | none => (phase, farm)
    | some (.ok outcome, farm) => (.waiting rest (outcomes ++ [outcome]), farm)
    | some (.error failure, farm) =>
      if outcomes.isEmpty then (.returned (.error failure), farm)
      else (.waiting rest outcomes, farm)
  | .waiting [] [] => (.returned (.error (.noSuchWorker 0)), farm)
  | .waiting [] (primary :: others) =>
    match firstError (primary :: others) with
    | some message => (.returned (.ok primary), farm.publish listeners (.evalError message))
    | none => (.returned (.ok primary), farm)
  | .returned _ => (phase, farm)

end Farm

/-- Calls under way, and what they and the workers have done so far. -/
structure Evaluations (ε σ Audience : Type) where
  farm : Farm ε σ Audience
  calls : List Call
  /-- The number of a call and a worker that it has sent its text to, for each time, in order. -/
  sends : List (Nat × Nat)
  /-- A worker and a text that it has evaluated, for each time, in order. -/
  services : List (Nat × String)

namespace Evaluations

/-- The next access of one of the threads around evaluations. -/
inductive Move where
  /-- The call of that number takes a step. -/
  | call (number : Nat)
  /-- The thread of worker `id` takes a step. -/
  | work (id : Nat)

/-- The calls whose texts were queued for worker `id`, in the order in which that happened. -/
def arrivals (sends : List (Nat × Nat)) (id : Nat) : List Nat :=
  (sends.filter fun send => send.2 == id).map Prod.fst

/-- The workers that a call has sent its text to. -/
def recipients (sends : List (Nat × Nat)) (number : Nat) : List Nat :=
  (sends.filter fun send => send.1 == number).map Prod.snd

/-- The texts that worker `id` has evaluated, the first one first. -/
def served (services : List (Nat × String)) (id : Nat) : List String :=
  (services.filter fun service => service.1 == id).map Prod.snd

/-- No call has sent its text to any of `count` workers while another was sending its own. -/
def Undivided (count : Nat) (sends : List (Nat × Nat)) : Prop :=
  ∃ order : List Nat, sends = order.flatMap fun number => (List.range count).map (Prod.mk number)

variable {ε σ Audience : Type}

/-- Calls about to begin, one for each of the texts. -/
def start (farm : Farm ε σ Audience) (sources : List String) : Evaluations ε σ Audience :=
  ⟨farm, sources.map (Call.start farm.workers.size), [], []⟩

variable [Scene σ] [Evaluator ε σ] (listeners : Listeners ε σ Audience)

/-- A step of a call. -/
def advance (evaluations : Evaluations ε σ Audience) (number : Nat) : Evaluations ε σ Audience :=
  match evaluations.calls[number]? with
  | none => evaluations
  | some call =>
    let (phase, farm) := Farm.stepCall listeners call.source call.phase evaluations.farm
    { evaluations with
      farm := farm
      calls := evaluations.calls.set number { call with phase := phase }
      sends := evaluations.sends ++ (call.unsent.head?.map (Prod.mk number)).toList }

/-- A step of the thread of worker `id`. -/
def work (evaluations : Evaluations ε σ Audience) (id : Nat) : Evaluations ε σ Audience :=
  match evaluations.farm.workers[id]? with
  | none => evaluations
  | some worker =>
    match worker.step? evaluations.farm.now with
    | none => evaluations
    | some (next, effects) =>
      { evaluations with
        farm := effects.foldl (Farm.perform listeners id) (evaluations.farm.setWorker id next)
        services := evaluations.services ++ (worker.thread.source?.map (Prod.mk id)).toList }

def step (evaluations : Evaluations ε σ Audience) : Move → Evaluations ε σ Audience
  | .call number => evaluations.advance listeners number
  | .work id => evaluations.work listeners id

/-- Makes moves one after the other. -/
def play (evaluations : Evaluations ε σ Audience) (moves : List Move) :
    Evaluations ε σ Audience :=
  moves.foldl (step listeners) evaluations

theorem play_append (evaluations : Evaluations ε σ Audience) (before after : List Move) :
    evaluations.play listeners (before ++ after) =
      (evaluations.play listeners before).play listeners after :=
  List.foldl_append

end Evaluations

end RenderFarm
