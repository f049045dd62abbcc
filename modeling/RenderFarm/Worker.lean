import RenderFarm.Failure
import RenderFarm.Scene
import RenderFarm.Worker.StateMachine

/-!
# Workers

A worker is a handle on a thread that owns one engine and the scene it retains. Requests are queued
and served in order; each carries a ticket under which its reply is found. The thread moves in
small steps: it announces what it is about to do, does it, and then announces that it is idle and
replies. An engine that panics ends the thread, and so does a load that fails; what was queued is
then dropped and no reply comes.
-/

namespace RenderFarm

inductive Request where
  | evaluate (source : String)
  | compute (row : UInt32)
  | names
  deriving DecidableEq

inductive Reply where
  /-- The engine is there, or could not be loaded for the reason given. -/
  | loaded (failure : Option String)
  | outcome (outcome : Outcome)
  /-- The colors of a row; none without a retained scene or beyond its height. -/
  | colors (colors : Option (List UInt32))
  | names (names : List String)
  deriving DecidableEq

/-- Where the thread of a worker stands. Between requests it holds the engine and the scene. -/
inductive Thread (ε σ : Type) where
  | absent
  | starting (load : Load ε) (ticket : Nat)
  | loading (load : Load ε) (ticket : Nat)
  | ready (engine : ε) (scene : Option σ)
  /-- An evaluation or a computation has been announced. -/
  | serving (engine : ε) (scene : Option σ) (ticket : Nat) (request : Request)
  /-- The engine is done, and the reply is still to be sent. -/
  | replying (engine : ε) (scene : Option σ) (ticket : Nat) (reply : Reply)
  | ended

/-- What a step of a thread shows outside. -/
inductive Effect where
  | reported (report : StateReport)
  | wrote (text : String)

structure Worker (ε σ : Type) where
  id : Nat
  machine : StateMachine
  thread : Thread ε σ
  /-- Requests not yet taken up, the oldest first. -/
  inbox : List (Nat × Request)
  /-- Replies not yet collected. -/
  outbox : List (Nat × Reply)
  /-- The number of tickets handed out. -/
  issued : Nat

namespace Worker

variable {ε σ : Type}

/-- A handle without a thread. -/
def create (id window : Nat) : Worker ε σ :=
  ⟨id, .start id window, .absent, [], [], 0⟩

def state (worker : Worker ε σ) : Worker.State :=
  worker.machine.current

def subscribe (worker : Worker ε σ) (listener : String) : Worker ε σ :=
  { worker with machine := worker.machine.subscribe listener }

def unsubscribe (worker : Worker ε σ) : Worker ε σ :=
  { worker with machine := worker.machine.unsubscribe }

/-- Whether a thread was ever started. -/
def isRunning (worker : Worker ε σ) : Bool :=
  match worker.thread with
  | .absent => false
  | _ => true

/-- Starts a new thread, which loads its engine; the ticket is for the news of that. A thread that
was there before is to have served its inbox. -/
def start (worker : Worker ε σ) (load : Load ε) : Nat × Worker ε σ :=
  (worker.issued,
    { worker with
      thread := .starting load worker.issued
      inbox := []
      issued := worker.issued + 1 })

/-- Whether there is a thread that takes requests up. -/
def listens (worker : Worker ε σ) : Bool :=
  match worker.thread with
  | .absent | .ended => false
  | _ => true

/-- Queues a request. Without a thread it is dropped, and its ticket never gets a reply. -/
def send (worker : Worker ε σ) (request : Request) : Nat × Worker ε σ :=
  (worker.issued,
    { worker with
      inbox := if worker.listens then worker.inbox ++ [(worker.issued, request)] else worker.inbox
      issued := worker.issued + 1 })

/-- The reply to a ticket, which is then no longer kept. -/
def collect? (worker : Worker ε σ) (ticket : Nat) : Option (Reply × Worker ε σ) :=
  (worker.outbox.lookup ticket).map fun reply =>
    (reply, { worker with outbox := worker.outbox.filter fun entry => entry.1 != ticket })

/-! ## Steps of the thread -/

def announce (worker : Worker ε σ) (now : Nat) (state : Worker.State) :
    Worker ε σ × List Effect :=
  let (machine, report) := worker.machine.transition now state
  ({ worker with machine := machine }, (report.map Effect.reported).toList)

def post (worker : Worker ε σ) (ticket : Nat) (reply : Reply) : Worker ε σ :=
  { worker with outbox := worker.outbox ++ [(ticket, reply)] }

/-- The end of the thread, and with it of all that is queued. -/
def retire (worker : Worker ε σ) : Worker ε σ :=
  { worker with thread := .ended, inbox := [] }

variable [Scene σ] [Evaluator ε σ]

/-- The reply to a request for names; an engine that cannot tell has none. There is no reply when the
engine panics. -/
def namesOf (engine : ε) : Option Reply :=
  match Evaluator.names engine with
  | .known names => some (.names names)
  | .failure => some (.names [])
  | .panic => none

/-- What becomes of the thread when the engine has evaluated: a scene replaces the retained one,
a success without a scene keeps it, and a failure drops it. -/
def evaluated (scene : Option σ) (ticket : Nat) : Verdict ε σ → Thread ε σ
  | .success engine text made =>
    .replying engine (made.or scene) ticket (.outcome (.success text (made.map Scene.size)))
  | .failure engine message => .replying engine none ticket (.outcome (.failure message))
  | .panic => .ended

/-- What becomes of the thread when a row was asked for. Only a row below the height of a retained
scene is computed. -/
def computed (engine : ε) (scene : Option σ) (ticket : Nat) (row : UInt32) : Thread ε σ :=
  match scene with
  | none => .replying engine none ticket (.colors none)
  | some held =>
    if row < (Scene.size held).height then
      match Scene.drawRow held row with
      | some (colors, next) => .replying engine (some next) ticket (.colors (some colors))
      | none => .ended
    else .replying engine scene ticket (.colors none)

/-- What becomes of the thread when the names were asked for. -/
def named (engine : ε) (scene : Option σ) (ticket : Nat) : Thread ε σ :=
  match namesOf engine with
  | some reply => .replying engine scene ticket reply
  | none => .ended

/-- Puts the thread where it goes next. -/
def proceed (worker : Worker ε σ) : Thread ε σ → Worker ε σ
  | .ended => worker.retire
  | thread => { worker with thread := thread }

/-- The next step of the thread at time `now`; none while it has nothing to do. -/
def step? (worker : Worker ε σ) (now : Nat) : Option (Worker ε σ × List Effect) :=
  match worker.thread with
  | .absent | .ended => none
  | .starting load ticket =>
    some ({ worker with thread := .loading load ticket }.announce now .loading)
  | .loading load ticket =>
    match load with
    | .engine engine =>
      let (next, effects) := { worker with thread := .ready engine none }.announce now .loaded
      some (next.post ticket (.loaded none), effects)
    | .failure message => some (worker.retire.post ticket (.loaded (some message)), [])
    | .panic => some (worker.retire, [])
  | .ready engine scene =>
    match worker.inbox with
    | [] => none
    | (ticket, request) :: rest =>
      let taken := { worker with inbox := rest }
      let serving := { taken with thread := .serving engine scene ticket request }
      match request with
      | .evaluate _ => some (serving.announce now .evaluating)
      | .compute row => some (serving.announce now (.computing row))
      | .names =>
        match namesOf engine with
        | some reply => some (taken.post ticket reply, [])
        | none => some (taken.retire, [])
  | .serving engine scene ticket request =>
    match request with
    | .evaluate source =>
      let evaluation := Evaluator.evaluate engine source
      some (worker.proceed (evaluated scene ticket evaluation.verdict),
        evaluation.writes.map Effect.wrote)
    | .compute row => some (worker.proceed (computed engine scene ticket row), [])
    | .names => some (worker.proceed (named engine scene ticket), [])
  | .replying engine scene ticket reply =>
    let (next, effects) := { worker with thread := .ready engine scene }.announce now .idle
    some (next.post ticket reply, effects)

/-- At least the number of steps until the thread has nothing to do. -/
def work (worker : Worker ε σ) : Nat :=
  3 * worker.inbox.length + 2

/-- Up to `count` steps, and what they show. -/
def stepMany (now : Nat) : Nat → Worker ε σ → Worker ε σ × List Effect
  | 0, worker => (worker, [])
  | count + 1, worker =>
    match worker.step? now with
    | none => (worker, [])
    | some (next, effects) =>
      let (last, more) := stepMany now count next
      (last, effects ++ more)

/-- Steps until the thread has nothing to do. -/
def settle (worker : Worker ε σ) (now : Nat) : Worker ε σ × List Effect :=
  worker.stepMany now worker.work

end Worker

/-- The words for a worker handle. -/
def Worker.describe {ε σ : Type} (worker : Worker ε σ) : String :=
  s!"Worker \x7b id: {worker.id}, state: {worker.state.describe}, running: {worker.isRunning} \x7d"

/-- The words for a reply that is awaited. -/
def Worker.describeReply {ε σ : Type} (worker : Worker ε σ) : String :=
  s!"Reply \x7b worker: {worker.id}, .. \x7d"

end RenderFarm
