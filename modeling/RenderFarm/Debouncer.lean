/-!
# Debouncing

A debouncer passes values on to one listener. A predicate tells which values are deferred: such a
value waits for a window of time and is handed over only if nothing newer came in the meantime. Any
other value is handed over at once and supersedes a waiting one.

Pushes, the timer and the listener's coming and going are separate atomic steps. A push that defers
sends the timer a deadline; the timer receives deadlines in order and holds the latest, takes it
out when it expires, and then fires it. What is still waiting is told by the generation, which every
push advances. `elapse` is the schedule of a timer that is always on time.

Time is counted in milliseconds.
-/

namespace RenderFarm

/-- When the value of a generation is due. -/
structure Deadline where
  generation : UInt64
  due : Nat
  deriving DecidableEq, Repr

/-- A value handed to a listener. -/
structure Delivery (α β : Type) where
  listener : β
  value : α
  deriving DecidableEq, Repr

/-- A debouncer of values `α` for listeners `β`. -/
structure Debouncer (α β : Type) where
  defers : α → Bool
  window : Nat
  listener : Option β
  /-- Advanced by every push, and back at zero after `2 ^ 64` of them. -/
  generation : UInt64
  pending : Option α
  /-- Deadlines that the timer has not received, the oldest first. -/
  sent : List Deadline
  /-- The deadline that the timer waits for. -/
  held : Option Deadline
  /-- The deadline that the timer found expired and is about to fire. -/
  expired : Option Deadline

namespace Debouncer

variable {α β : Type}

def start (defers : α → Bool) (window : Nat) : Debouncer α β :=
  ⟨defers, window, none, 0, none, [], none, none⟩

def attach (debouncer : Debouncer α β) (listener : β) : Debouncer α β :=
  { debouncer with listener := some listener }

/-- Without a listener values are consumed unseen. -/
def detach (debouncer : Debouncer α β) : Debouncer α β :=
  { debouncer with listener := none }

def isWaiting (debouncer : Debouncer α β) : Bool :=
  debouncer.pending.isSome

/-- What the listener, if there is one, is handed. -/
def deliver (debouncer : Debouncer α β) (value : α) : Option (Delivery α β) :=
  debouncer.listener.map fun listener => ⟨listener, value⟩

/-- Takes a value in at time `now`. -/
def push (debouncer : Debouncer α β) (now : Nat) (value : α) :
    Debouncer α β × Option (Delivery α β) :=
  let next := { debouncer with generation := debouncer.generation + 1 }
  if next.defers value then
    let deadline := ⟨next.generation, now + next.window⟩
    ({ next with pending := some value, sent := next.sent ++ [deadline] }, none)
  else
    ({ next with pending := none }, next.deliver value)

/-! ## The timer -/

/-- The timer receives the oldest deadline sent and holds it in place of any other. -/
def receive (debouncer : Debouncer α β) : Debouncer α β :=
  match debouncer.expired, debouncer.sent with
  | none, deadline :: rest => { debouncer with sent := rest, held := some deadline }
  | _, _ => debouncer

/-- The timer takes the deadline it holds once that is due. -/
def expire (debouncer : Debouncer α β) (now : Nat) : Debouncer α β :=
  match debouncer.expired, debouncer.held with
  | none, some deadline =>
    if deadline.due ≤ now then { debouncer with held := none, expired := some deadline }
    else debouncer
  | _, _ => debouncer

/-- The timer fires the deadline it took. A deadline of an older generation comes to nothing. -/
def fire (debouncer : Debouncer α β) : Debouncer α β × Option (Delivery α β) :=
  match debouncer.expired with
  | none => (debouncer, none)
  | some deadline =>
    let next := { debouncer with expired := none }
    if next.generation = deadline.generation then
      match next.pending with
      | some value => ({ next with pending := none }, next.deliver value)
      | none => (next, none)
    else (next, none)

/-! ## A timer that is on time -/

/-- The timer receives all that was sent. -/
def receiveAll (debouncer : Debouncer α β) : Debouncer α β :=
  debouncer.sent.foldl (fun current _ => current.receive) debouncer

/-- When the timer will act next, all deadlines received. -/
def nextDue (debouncer : Debouncer α β) : Option Nat :=
  debouncer.receiveAll.held.map (·.due)

/-- What happens by the time `now`: the deadline held, if it is due by then, is taken and fired. -/
def elapse (debouncer : Debouncer α β) (now : Nat) : Debouncer α β × Option (Delivery α β) :=
  (debouncer.receiveAll.expire now).fire

end Debouncer

end RenderFarm
