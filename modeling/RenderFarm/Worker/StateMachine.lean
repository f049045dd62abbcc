import RenderFarm.Debouncer
import RenderFarm.Worker.State

/-!
# A worker's state and its listener

The state machine of a worker keeps the current state and reports every move to one listener. Idle
is reported only when the worker stays idle for the debounce window; all other states are reported
at once. Listeners are known by the name under which they file their reports.

The timer of a state machine is always on time: it has received each deadline before anything else
happens, and acts on it the moment it is due.
-/

namespace RenderFarm

/-- A state handed to the listener of that name. -/
abbrev StateReport := Delivery Worker.State String

structure StateMachine where
  id : Nat
  current : Worker.State
  reporter : Debouncer Worker.State String

namespace StateMachine

def start (id window : Nat) : StateMachine :=
  ⟨id, .created, .start Worker.State.isIdle window⟩

/-- Moves to a state and reports it, whether or not the move belongs to a worker's life. -/
def transition (machine : StateMachine) (now : Nat) (next : Worker.State) :
    StateMachine × Option StateReport :=
  let (reporter, report) := machine.reporter.push now next
  ({ machine with current := next, reporter := reporter.receiveAll }, report)

/-- Makes `listener` the listener, in place of any other. -/
def subscribe (machine : StateMachine) (listener : String) : StateMachine :=
  { machine with reporter := machine.reporter.attach listener }

def unsubscribe (machine : StateMachine) : StateMachine :=
  { machine with reporter := machine.reporter.detach }

/-- What is reported by the time `now`. -/
def elapse (machine : StateMachine) (now : Nat) : StateMachine × Option StateReport :=
  let (reporter, report) := machine.reporter.elapse now
  ({ machine with reporter := reporter }, report)

def describe (machine : StateMachine) : String :=
  s!"StateMachine \x7b id: {machine.id}, current: {machine.current.describe}, .. \x7d"

end StateMachine

end RenderFarm
