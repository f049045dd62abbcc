import RenderFarm.Pool

/-!
# Pools being started

`Pool.spawn` starts the workers one after the other, and their threads load their engines side by
side. Then it waits for the news of each load in the order of the workers. At the first failure it
gives all workers up, and waits for the end of each thread. A `Spawning` is a pool on its way, a
`Turn` is the next access of one of the threads, and `play` takes the turns of a list in order. A turn
of a thread that has nothing to do, or that waits, changes nothing.
-/

namespace RenderFarm.Pool

/-- Where the thread stands that starts a pool. -/
inductive Phase where
  /-- The workers `ids` are still to be started; the others have given tickets for their loads. -/
  | launching (ids : List Nat) (tickets : List (Nat × Nat))
  /-- The news under the tickets is still to come, each of its worker. -/
  | awaiting (tickets : List (Nat × Nat))
  /-- A load has failed, and the threads of the workers `ids` are still to end. -/
  | leaving (failure : Failure) (ids : List Nat)
  | returned (result : Except Failure Unit)

/-- A pool on its way. -/
structure Spawning (ε σ : Type) where
  workers : Array (Worker ε σ)
  phase : Phase

namespace Spawning

/-- The next access of one of the threads around a pool on its way. -/
inductive Turn where
  /-- The thread that starts the pool takes a step. -/
  | main
  /-- The thread of worker `id` takes a step, at the time `now`. -/
  | work (id now : Nat)

variable {ε σ : Type}

/-- A pool of so many workers, none of which is there yet. -/
def start (count : Nat) : Spawning ε σ :=
  ⟨#[], .launching (List.range count) []⟩

/-- What came of a pool that is no longer on its way. -/
def result? (spawning : Spawning ε σ) : Option (Except Failure (Array (Worker ε σ))) :=
  match spawning.phase with
  | .returned result => some (result.map fun _ => spawning.workers)
  | .launching .. | .awaiting _ | .leaving .. => none

variable [Scene σ] [Evaluator ε σ]

/-- Whether the thread of a worker has a step to take, which does not depend on the time. -/
def hasStep (worker : Worker ε σ) : Bool :=
  (worker.step? 0).isSome

/-- The news of a load, if it comes at all; none as long as that is open. -/
def hear? (ticket : Nat) (worker : Worker ε σ) : Option (Option Reply × Worker ε σ) :=
  match worker.collect? ticket with
  | some (reply, next) => some (some reply, next)
  | none => if hasStep worker then none else some (none, worker)

/-- A worker whose thread has ended for want of requests; none as long as it has steps to take. -/
def join? (worker : Worker ε σ) : Option (Worker ε σ) :=
  if hasStep worker then none else some worker.retire

variable (config : Pool.Config) (observer : Nat → Option String) (load : Nat → Load ε)

/-- A step of the thread that starts the pool. -/
def advance (spawning : Spawning ε σ) : Spawning ε σ :=
  match spawning.phase with
  | .launching (id :: ids) tickets =>
    let (ticket, worker) := launch config.idleWindow (observer id) (load id) id
    ⟨spawning.workers.push worker, .launching ids (tickets ++ [(id, ticket)])⟩
  | .launching [] tickets => { spawning with phase := .awaiting tickets }
  | .awaiting ((id, ticket) :: tickets) =>
    match spawning.workers[id]?.bind (hear? ticket) with
    | none => spawning
    | some (reply, worker) =>
      { workers := spawning.workers.setIfInBounds id worker
        phase :=
          match loadFailure? id reply with
          | none => .awaiting tickets
          | some failure => .leaving failure (List.range spawning.workers.size) }
  | .awaiting [] => { spawning with phase := .returned (.ok ()) }
  | .leaving failure (id :: ids) =>
    match spawning.workers[id]?.bind join? with
    | none => spawning
    | some worker => ⟨spawning.workers.setIfInBounds id worker, .leaving failure ids⟩
  | .leaving failure [] => { spawning with phase := .returned (.error failure) }
  | .returned _ => spawning

/-- A step of the thread of worker `id`. -/
def work (spawning : Spawning ε σ) (id now : Nat) : Spawning ε σ :=
  match spawning.workers[id]?.bind (·.step? now) with
  | none => spawning
  | some (next, _) => { spawning with workers := spawning.workers.setIfInBounds id next }

def step (spawning : Spawning ε σ) : Turn → Spawning ε σ
  | .main => spawning.advance config observer load
  | .work id now => spawning.work id now

/-- Takes turns one after the other. -/
def play (spawning : Spawning ε σ) (turns : List Turn) : Spawning ε σ :=
  turns.foldl (step config observer load) spawning

end Spawning

/-! ## The thread of one worker -/

section Trail

variable {ε σ : Type}

/-- The number of steps that a thread takes until its engine has loaded or not. -/
def stepsLeft : Thread ε σ → Nat
  | .starting .. => 2
  | .loading .. => 1
  | _ => 0

variable [Scene σ] [Evaluator ε σ]
variable (window : Nat) (observer : Option String) (load : Load ε) (id : Nat)

/-- A worker after so many steps of the thread that loads its engine. -/
def trail (count : Nat) : Worker ε σ :=
  ((launch window observer load id).2.stepMany 0 count).1

/-- What is wrong with a load, as the thread that starts the pool is told. -/
def failureOf? : Load ε → Option Failure
  | .engine _ => none
  | .failure message => some (.engineNotLoaded id message)
  | .panic => some (.disconnected id)

theorem launch_eq :
    launch window observer load id =
      ((0, trail window observer load id 0) : Nat × Worker ε σ) := by
  cases observer <;> rfl

/-- The thread has two steps to take, whatever comes of the load. -/
theorem step?_trail (now : Nat) {count : Nat} (early : count < 2) :
    ∃ effects, (trail window observer load id count : Worker ε σ).step? now =
      some (trail window observer load id (count + 1), effects) := by
  match count with
  | 0 => cases observer <;> cases load <;> exact ⟨_, rfl⟩
  | 1 => cases observer <;> cases load <;> exact ⟨_, rfl⟩

theorem step?_trail_two (now : Nat) :
    (trail window observer load id 2 : Worker ε σ).step? now = none := by
  cases observer <;> cases load <;> rfl

theorem stepsLeft_trail {count : Nat} (most : count ≤ 2) :
    stepsLeft (trail window observer load id count : Worker ε σ).thread = 2 - count := by
  match count with
  | 0 => cases observer <;> cases load <;> rfl
  | 1 => cases observer <;> cases load <;> rfl
  | 2 => cases observer <;> cases load <;> rfl

theorem hear?_trail {count : Nat} (early : count < 2) :
    Spawning.hear? 0 (trail window observer load id count : Worker ε σ) = none := by
  match count with
  | 0 => cases observer <;> cases load <;> rfl
  | 1 => cases observer <;> cases load <;> rfl

/-- When the thread has taken its steps, there is news of the load. -/
theorem hear?_trail_two :
    ∃ reply, Spawning.hear? 0 (trail window observer load id 2 : Worker ε σ) =
        some (reply, (launched 0 window observer load id).worker) ∧
      loadFailure? id reply = failureOf? id load := by
  cases observer <;> cases load <;> exact ⟨_, rfl, rfl⟩

theorem launched_failure (now : Nat) :
    (launched now window observer load id : Launched ε σ).failure = failureOf? id load := by
  cases observer <;> cases load <;> rfl

/-- A worker has nothing to do when the news of its load was taken. -/
theorem step?_launched (now later : Nat) :
    (launched now window observer load id : Launched ε σ).worker.step? later = none := by
  cases observer <;> cases load <;> rfl

theorem stepsLeft_launched (now : Nat) :
    stepsLeft (launched now window observer load id : Launched ε σ).worker.thread = 0 := by
  cases observer <;> cases load <;> rfl

theorem launched_worker (now : Nat) :
    (launched now window observer load id : Launched ε σ).worker =
      (launched 0 window observer load id).worker := by
  cases observer <;> cases load <;> rfl

/-- A worker whose engine has loaded waits for requests. -/
theorem launched_loaded (now : Nat) {engine : ε} (loads : load = .engine engine) :
    let worker := (launched now window observer load id : Launched ε σ).worker
    worker.id = id ∧ worker.state = .loaded ∧ worker.thread = .ready engine none := by
  subst loads
  cases observer <;> exact ⟨rfl, rfl, rfl⟩

end Trail

/-! ## The steps of the thread that starts the pool -/

namespace Spawning

section Advance

variable {ε σ : Type} [Scene σ] [Evaluator ε σ]
variable (config : Pool.Config) (observer : Nat → Option String) (load : Nat → Load ε)
variable (workers : Array (Worker ε σ)) (id ticket : Nat) (ids : List Nat)
variable (tickets : List (Nat × Nat)) (failure : Failure)

theorem advance_launch :
    advance config observer load ⟨workers, .launching (id :: ids) tickets⟩ =
      ⟨workers.push (trail config.idleWindow (observer id) (load id) id 0),
        .launching ids (tickets ++ [(id, 0)])⟩ := by
  simp only [advance, launch_eq]

theorem advance_launched :
    advance config observer load ⟨workers, .launching [] tickets⟩ = ⟨workers, .awaiting tickets⟩ :=
  rfl

theorem advance_await_open (silent : workers[id]?.bind (hear? ticket) = none) :
    advance config observer load ⟨workers, .awaiting ((id, ticket) :: tickets)⟩ =
      ⟨workers, .awaiting ((id, ticket) :: tickets)⟩ := by
  simp only [advance, silent]

theorem advance_await {reply : Option Reply} {next : Worker ε σ}
    (news : workers[id]?.bind (hear? ticket) = some (reply, next)) :
    advance config observer load ⟨workers, .awaiting ((id, ticket) :: tickets)⟩ =
      ⟨workers.setIfInBounds id next,
        match loadFailure? id reply with
        | none => .awaiting tickets
        | some failure => .leaving failure (List.range workers.size)⟩ := by
  simp only [advance, news]

theorem advance_awaited :
    advance config observer load ⟨workers, .awaiting []⟩ = ⟨workers, .returned (.ok ())⟩ :=
  rfl

theorem advance_leave_open (busy : workers[id]?.bind join? = none) :
    advance config observer load ⟨workers, .leaving failure (id :: ids)⟩ =
      ⟨workers, .leaving failure (id :: ids)⟩ := by
  simp only [advance, busy]

theorem advance_leave {next : Worker ε σ} (ended : workers[id]?.bind join? = some next) :
    advance config observer load ⟨workers, .leaving failure (id :: ids)⟩ =
      ⟨workers.setIfInBounds id next, .leaving failure ids⟩ := by
  simp only [advance, ended]

theorem advance_left :
    advance config observer load ⟨workers, .leaving failure []⟩ =
      ⟨workers, .returned (.error failure)⟩ :=
  rfl

end Advance

/-- A worker without steps to take can be given up. -/
theorem join?_of_quiet {ε σ : Type} [Scene σ] [Evaluator ε σ] {worker : Worker ε σ}
    (quiet : ∀ now, worker.step? now = none) : join? worker = some worker.retire := by
  simp [join?, hasStep, quiet]

end Spawning

theorem join?_trail {ε σ : Type} [Scene σ] [Evaluator ε σ] (window : Nat)
    (observer : Option String) (load : Load ε) (id : Nat) {count : Nat} (early : count < 2) :
    Spawning.join? (trail window observer load id count : Worker ε σ) = none := by
  obtain ⟨effects, steps⟩ := step?_trail (σ := σ) window observer load id 0 early
  simp [Spawning.join?, Spawning.hasStep, steps]

end RenderFarm.Pool
