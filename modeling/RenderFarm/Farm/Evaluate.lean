import RenderFarm.Farm

/-!
# Evaluating on every worker

Workers share no memory, so a source text goes to all of them and each makes a scene of its own. All
are sent the text before any reply is awaited. The outcome is that of worker 0; when some worker
failed, one event tells the message of the lowest-numbered of them. Workers that are gone are left
out, except worker 0, without which there is no outcome.
-/

namespace RenderFarm.Farm

variable {ε σ Audience : Type}

/-- The message of the first outcome that failed. -/
def firstError (outcomes : List Outcome) : Option String :=
  outcomes.findSome? Outcome.error

/-- Sends a source text to the workers `ids`; gives the tickets. -/
def sendAll (source : String) : List Nat → Farm ε σ Audience → List (Nat × Nat) × Farm ε σ Audience
  | [], farm => ([], farm)
  | id :: ids, farm =>
    match farm.send id (.evaluate source) with
    | (none, farm) => sendAll source ids farm
    | (some ticket, farm) =>
      let (tickets, last) := sendAll source ids farm
      ((id, ticket) :: tickets, last)

variable [Scene σ] [Evaluator ε σ] (listeners : Listeners ε σ Audience)

/-- Waits for one outcome. -/
def receiveOutcome (farm : Farm ε σ Audience) (id ticket : Nat) :
    Except Failure Outcome × Farm ε σ Audience :=
  match farm.receive listeners id ticket with
  | (.ok (.outcome outcome), farm) => (.ok outcome, farm)
  | (.ok _, farm) => (.error (.disconnected id), farm)
  | (.error failure, farm) => (.error failure, farm)

/-- Waits for the outcomes under several tickets; workers that are gone give none. -/
def receiveAll : List (Nat × Nat) → Farm ε σ Audience → List Outcome × Farm ε σ Audience
  | [], farm => ([], farm)
  | (id, ticket) :: rest, farm =>
    let (result, farm) := farm.receiveOutcome listeners id ticket
    let (outcomes, last) := receiveAll rest farm
    match result with
    | .ok outcome => (outcome :: outcomes, last)
    | .error _ => (outcomes, last)

/-- Evaluates a source text on every worker. -/
def evaluate (farm : Farm ε σ Audience) (source : String) :
    Except Failure Outcome × Farm ε σ Audience :=
  match sendAll source (List.range farm.workers.size) farm with
  | ([], farm) => (.error (.noSuchWorker 0), farm)
  | ((id, ticket) :: rest, farm) =>
    match farm.receiveOutcome listeners id ticket with
    | (.error failure, farm) => (.error failure, farm)
    | (.ok primary, farm) =>
      let (others, farm) := receiveAll listeners rest farm
      match firstError (primary :: others) with
      | some message => (.ok primary, farm.publish listeners (.evalError message))
      | none => (.ok primary, farm)

end RenderFarm.Farm
