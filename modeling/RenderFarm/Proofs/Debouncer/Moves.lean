import RenderFarm.Debouncer

/-!
# A debouncer among its threads

The threads that push and that change the listener, the timer and the clock take turns in any order.
A `Debouncing` is a debouncer at some time, a `Move` is what one of them does next, and `play` makes
the moves of a list in order. The timer may be as late as it likes: a deadline is received, taken
and fired by moves of its own, with any others in between. The log has one entry for each move, with
its time and what was handed over in it.
-/

namespace RenderFarm

namespace Debouncing

inductive Move (α β : Type) where
  | push (value : α)
  | attach (listener : β)
  | detach
  /-- The timer receives the oldest deadline sent. -/
  | receive
  /-- The timer takes the deadline it holds, if that is due. -/
  | expire
  /-- The timer fires the deadline it took. -/
  | fire
  | wait (milliseconds : Nat)

variable {α β : Type}

def Move.pushed? : Move α β → Option α
  | .push value => some value
  | .attach _ | .detach | .receive | .expire | .fire | .wait _ => none

/-- Whether the move is one of the timer or the clock. -/
def Move.isTimer : Move α β → Bool
  | .receive | .expire | .fire | .wait _ => true
  | .push _ | .attach _ | .detach => false

structure Entry (α β : Type) where
  time : Nat
  move : Move α β
  /-- What was handed to the listener. -/
  handed : Option (Delivery α β)

/-- The listener registered after a move, given the one before. -/
def Move.registers (listener : Option β) : Move α β → Option β
  | .attach next => some next
  | .detach => none
  | .push _ | .receive | .expire | .fire | .wait _ => listener

/-- The listener registered after the moves of a log. -/
def registered (log : List (Entry α β)) : Option β :=
  log.foldl (fun listener entry => entry.move.registers listener) none

theorem registered_concat (log : List (Entry α β)) (entry : Entry α β) :
    registered (log ++ [entry]) = entry.move.registers (registered log) :=
  List.foldl_append

/-- The number of pushes. -/
def pushes (moves : List (Move α β)) : Nat :=
  (moves.filterMap Move.pushed?).length

/-- The latest push of a log is that of a value at a time, and nothing was handed over in it or
since. -/
def Awaits (log : List (Entry α β)) (value : α) (time : Nat) : Prop :=
  ∃ earlier since, log = earlier ++ ⟨time, .push value, none⟩ :: since ∧
    ∀ entry ∈ since, entry.move.pushed? = none ∧ entry.handed = none

end Debouncing

/-- A debouncer at some time, and what happened to it so far. -/
structure Debouncing (α β : Type) where
  debouncer : Debouncer α β
  now : Nat
  log : List (Debouncing.Entry α β)

namespace Debouncing

variable {α β : Type}

def start (defers : α → Bool) (window : Nat) : Debouncing α β :=
  ⟨.start defers window, 0, []⟩

/-- What a move does to the debouncer, and what is handed over in it. -/
def act (debouncer : Debouncer α β) (now : Nat) :
    Move α β → Debouncer α β × Option (Delivery α β)
  | .push value => debouncer.push now value
  | .attach listener => (debouncer.attach listener, none)
  | .detach => (debouncer.detach, none)
  | .receive => (debouncer.receive, none)
  | .expire => (debouncer.expire now, none)
  | .fire => debouncer.fire
  | .wait _ => (debouncer, none)

def step (debouncing : Debouncing α β) (move : Move α β) : Debouncing α β :=
  let (next, handed) := act debouncing.debouncer debouncing.now move
  { debouncer := next
    now := match move with
      | .wait milliseconds => debouncing.now + milliseconds
      | _ => debouncing.now
    log := debouncing.log ++ [⟨debouncing.now, move, handed⟩] }

/-- Makes moves one after the other. -/
def play (debouncing : Debouncing α β) (moves : List (Move α β)) : Debouncing α β :=
  moves.foldl step debouncing

theorem play_append (debouncing : Debouncing α β) (before after : List (Move α β)) :
    debouncing.play (before ++ after) = (debouncing.play before).play after :=
  List.foldl_append

/-- The log has the moves in their order. -/
theorem moves_log (debouncing : Debouncing α β) (moves : List (Move α β)) :
    (debouncing.play moves).log.map Entry.move = debouncing.log.map Entry.move ++ moves := by
  induction moves generalizing debouncing with
  | nil => exact (List.append_nil _).symm
  | cons move rest ih =>
      have first : (debouncing.step move).log.map Entry.move =
          debouncing.log.map Entry.move ++ [move] := List.map_append
      exact (ih _).trans (by rw [first, List.append_assoc, List.singleton_append])

end Debouncing

end RenderFarm
