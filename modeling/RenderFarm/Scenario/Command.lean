import RenderFarm.Canvas
import RenderFarm.Event.Bus
import RenderFarm.Farm.Render

/-!
# Commands, reactions and answers

A scenario is a list of commands to a farm. Subscriptions made by a scenario carry reactions:
commands that are carried out while an event is being delivered, each reaction for a limited number
of times. A reaction may subscribe with reactions of its own, so how deep commands can nest is a
number computed from the scenario, its `depth`.
-/

namespace RenderFarm.Scenario

mutual

inductive Command where
  | subscribe (tag : String) (kinds : EventKinds) (reactions : List Reaction)
  | openChannel (tag : String) (kinds : EventKinds)
  | receive (tag : String)
  | dropReceiver (tag : String)
  | unsubscribe (tag : String)
  | publish (event : Event)
  | countSubscriptions
  | describeBus
  | attachCanvas (tag : String)
  | showCanvas (tag : String)
  | evaluate (source : String)
  | run (source : String)
  | render (size : Dimensions)
  | cancel
  | isRendering
  | names
  | countWorkers
  | stateOf (id : Nat)
  | listenTo (id : Nat) (tag : String)
  | ignore (id : Nat)
  | request (id : Nat) (request : Request)
  | wait (milliseconds : Nat)
  /-- A command that is not understood and does nothing. -/
  | unknown

/-- Commands for the first `limit` events that fit. -/
inductive Reaction where
  | mk (kinds : EventKinds) (row : Option UInt32) (limit : Nat) (commands : List Command)

end

instance : Inhabited Command := ⟨.unknown⟩

namespace Reaction

def limit : Reaction → Nat
  | mk _ _ limit _ => limit

def commands : Reaction → List Command
  | mk _ _ _ commands => commands

/-- Whether an event is of a kind that the reaction is for and, if it is for one row, a line of
that row. -/
def fits (event : Event) : Reaction → Bool
  | mk kinds row _ _ => kinds.has event.kind && (row.isNone || row == event.row?)

end Reaction

/-! ## How deep commands nest -/

mutual

/-- How often reactions can run on account of a command. -/
def Command.depth : Command → Nat
  | .subscribe _ _ reactions => Reaction.depths reactions
  | _ => 0

def Reaction.depth : Reaction → Nat
  | .mk _ _ limit commands => limit * (Command.depths commands + 1)

def Command.depths : List Command → Nat
  | [] => 0
  | command :: rest => command.depth + Command.depths rest

def Reaction.depths : List Reaction → Nat
  | [] => 0
  | reaction :: rest => reaction.depth + Reaction.depths rest

end

/-! ## What is seen -/

/-- What comes back for a command. -/
inductive Answer where
  | nothing
  | flag (value : Bool)
  | count (value : Nat)
  | text (text : String)
  | names (names : List String)
  | outcome (outcome : Outcome)
  | colors (colors : List UInt32)
  | events (events : List Event)
  | report (report : RenderSummary)
  | canvas (canvas : Canvas)
  | state (state : Worker.State)
  | failed (failure : Failure)
  /-- An engine's own error. -/
  | rejected (message : String)
  /-- The indices of a pool's workers. -/
  | pool (ids : List Nat)
  | list (answers : List Answer)

/-- What listeners and output sinks receive. -/
inductive Happening where
  | wrote (text : String)
  | entered (state : Worker.State)
  | saw (event : Event)
  | did (answer : Answer)

/-- A happening with the tag of whoever received it. -/
structure Entry where
  tag : String
  happening : Happening

/-- The answer that a reply makes. -/
def Answer.ofReply : Except Failure Reply → Answer
  | .error failure => .failed failure
  | .ok (.outcome result) => .outcome result
  | .ok (.colors (some row)) => .colors row
  | .ok (.colors none) => .nothing
  | .ok (.names found) => .names found
  | .ok (.loaded none) => .text "ready"
  | .ok (.loaded (some message)) => .rejected message

def Answer.ofOutcome : Except Failure Outcome → Answer
  | .error failure => .failed failure
  | .ok result => .outcome result

end RenderFarm.Scenario
