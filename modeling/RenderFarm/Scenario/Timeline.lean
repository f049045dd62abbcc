import RenderFarm.Scenario.Command

/-!
# Debouncers and state machines in time

Scenarios for a single debouncer and for a single state machine, on a clock that only waiting moves
and with a timer that is always on time.
-/

namespace RenderFarm.Scenario

/-- Which integers a debouncer defers. -/
inductive Deferral where
  | zero
  | negative
  | even
  | never
  | always
  deriving DecidableEq

def Deferral.defers : Deferral → Int → Bool
  | zero, value => value == 0
  | negative, value => value < 0
  | even, value => value % 2 == 0
  | never, _ => false
  | always, _ => true

inductive DebounceStep where
  | push (value : Int)
  | listen (tag : String)
  | clear
  | drop
  | wait (milliseconds : Nat)

/-- A value that a listener received, with its number among those since it began to listen. -/
structure Heard where
  tag : String
  value : Int
  number : Nat

/-- A debouncer on a clock, until it is dropped; `heard` counts for the present listener. -/
structure DebounceBench where
  now : Nat
  debouncer : Option (Debouncer Int String)
  heard : Nat

namespace DebounceBench

def start (deferral : Deferral) (window : Nat) : DebounceBench :=
  ⟨0, some (.start deferral.defers window), 0⟩

/-- Counts what was delivered. -/
def hear (bench : DebounceBench) (debouncer : Debouncer Int String) :
    Option (Delivery Int String) → List Heard × DebounceBench
  | none => ([], { bench with debouncer := some debouncer })
  | some delivery =>
    ([⟨delivery.listener, delivery.value, bench.heard + 1⟩],
      { bench with debouncer := some debouncer, heard := bench.heard + 1 })

def step (bench : DebounceBench) (step : DebounceStep) : List Heard × DebounceBench :=
  match bench.debouncer with
  | none => ([], bench)
  | some debouncer =>
    match step with
    | .push value =>
      let (next, delivery) := debouncer.push bench.now value
      bench.hear next.receiveAll delivery
    | .listen tag =>
      ([], { bench with debouncer := some (debouncer.attach tag), heard := 0 })
    | .clear => ([], { bench with debouncer := some debouncer.detach })
    | .drop => ([], { bench with debouncer := none })
    | .wait milliseconds =>
      let later := bench.now + milliseconds
      let (next, delivery) := debouncer.elapse later
      { bench with now := later }.hear next delivery

/-- Whether a value is pending; unknown once the debouncer is dropped. -/
def pending (bench : DebounceBench) : Option Bool :=
  bench.debouncer.map Debouncer.isWaiting

end DebounceBench

/-! ## State machines -/

inductive MachineStep where
  | transition (state : Worker.State)
  | subscribe (tag : String)
  | unsubscribe
  | wait (milliseconds : Nat)
  | describe

/-- A state machine on a clock. -/
structure MachineBench where
  now : Nat
  machine : StateMachine

namespace MachineBench

def start (id window : Nat) : MachineBench :=
  ⟨0, .start id window⟩

def step (bench : MachineBench) (step : MachineStep) :
    Answer × Option StateReport × MachineBench :=
  match step with
  | .transition state =>
    let (next, report) := bench.machine.transition bench.now state
    (.nothing, report, { bench with machine := next })
  | .subscribe tag => (.nothing, none, { bench with machine := bench.machine.subscribe tag })
  | .unsubscribe => (.nothing, none, { bench with machine := bench.machine.unsubscribe })
  | .wait milliseconds =>
    let later := bench.now + milliseconds
    let (next, report) := bench.machine.elapse later
    (.nothing, report, ⟨later, next⟩)
  | .describe => (.text bench.machine.describe, none, bench)

end MachineBench

end RenderFarm.Scenario
