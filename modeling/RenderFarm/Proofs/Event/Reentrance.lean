import RenderFarm.Proofs.Event.Broadcast

/-!
# Listeners that use the bus

One thread uses a bus, and so do the listeners that it calls while it publishes: they subscribe, open
channels, unsubscribe anyone, drop receivers and publish in their turn, to any depth. What a listener
does is a `Plan`, which may depend on what comes back and on whatever the listeners keep. The thread
has a stack of frames, each a plan or a publication under way, and takes one step at a time.

`handover?` is the turn that the next step of a thread takes, if it is one of a publication, and `due`
lists the turns that the publications under way are still to take. A step takes a turn from the list or
leaves the list alone (`step_due`), whatever becomes of the bus in the meantime.
-/

namespace RenderFarm

namespace EventBus

/-- What may be done with a bus, besides publishing. -/
inductive Operation where
  | subscribe (kinds : EventKinds)
  | openChannel (kinds : EventKinds)
  | unsubscribe (id : SubscriptionId)
  | receive (id : SubscriptionId)
  | dropReceiver (id : SubscriptionId)
  | count

/-- What comes back from an operation. -/
inductive Result where
  | made (id : SubscriptionId)
  | flag (value : Bool)
  | events (events : Option (List Event))
  | count (value : Nat)

def perform (bus : EventBus) : Operation → Result × EventBus
  | .subscribe kinds =>
    let (id, next) := bus.subscribe kinds
    (.made id, next)
  | .openChannel kinds =>
    let (id, next) := bus.openChannel kinds
    (.made id, next)
  | .unsubscribe id =>
    let (there, next) := bus.unsubscribe id
    (.flag there, next)
  | .receive id =>
    let (events, next) := bus.receive id
    (.events events, next)
  | .dropReceiver id =>
    let (there, next) := bus.dropReceiver id
    (.flag there, next)
  | .count => (.count bus.count, bus)

/-- Nothing is queued in a channel without a receiver. -/
theorem post_of_closed {bus : EventBus} {id : SubscriptionId} (closed : bus.isOpen id = false)
    (event : Event) : bus.post id event = bus := by
  have others : ∀ receiver ∈ bus.receivers, receiver.id ≠ id := by
    simpa [isOpen, List.any_eq_false] using closed
  have same : bus.receivers.map (fun receiver =>
      if receiver.id = id then ⟨id, receiver.waiting.push event⟩ else receiver) = bus.receivers :=
    (List.map_congr_left fun receiver member => if_neg (others receiver member)).trans
      (List.map_id' _)
  simp only [post, same]

/-- An operation queues no event. -/
theorem receivers_perform (bus : EventBus) (operation : Operation) :
    ∀ receiver ∈ (bus.perform operation).2.receivers,
      receiver ∈ bus.receivers ∨ receiver.waiting = #[] := by
  intro receiver member
  cases operation with
  | subscribe | unsubscribe | count => exact .inl member
  | openChannel kinds =>
      refine (List.mem_append.1 member).imp_right fun last => ?_
      rw [List.mem_singleton.1 last]
  | receive id =>
      obtain ⟨old, there, rfl⟩ := List.mem_map.1 member
      split
      · exact .inr rfl
      · exact .inl there
  | dropReceiver id => exact .inl (List.mem_filter.1 member).1

end EventBus

/-- What a listener does, with `α` for what listeners keep. -/
inductive Plan (α : Type) where
  | done
  | read (next : α → Plan α)
  | write (kept : α) (next : Plan α)
  | use (operation : EventBus.Operation) (next : EventBus.Result → Plan α)
  | publish (event : Event) (next : Plan α)

inductive Frame (α : Type) where
  | listener (plan : Plan α)
  /-- A publication under way, with its number. -/
  | publication (number : Nat) (broadcast : Broadcast)

/-- A thread that uses a bus. -/
structure BusThread (α : Type) where
  bus : EventBus
  kept : α
  /-- What is under way, the innermost first. -/
  frames : List (Frame α)
  /-- The number of publications begun so far. -/
  begun : Nat

/-- The turn of a subscription in a publication. -/
structure Handover where
  /-- The number of the publication. -/
  number : Nat
  event : Event
  target : Subscription
  deriving DecidableEq

/-- The turns that a frame is still to take. -/
def Frame.due {α : Type} : Frame α → List Handover
  | .listener _ => []
  | .publication number broadcast => broadcast.rest.map (Handover.mk number broadcast.event)

namespace BusThread

variable {α : Type}

/-- A thread that is about to follow a plan. -/
def start (bus : EventBus) (kept : α) (plan : Plan α) : BusThread α :=
  ⟨bus, kept, [.listener plan], 0⟩

/-- The turn that the next step takes. -/
def handover? (thread : BusThread α) : Option Handover :=
  match thread.frames with
  | .publication number broadcast :: _ =>
    broadcast.rest.head?.map (Handover.mk number broadcast.event)
  | _ => none

/-- The turns that are still to be taken, the innermost publication first. -/
def due (thread : BusThread α) : List Handover :=
  thread.frames.flatMap Frame.due

/-- A step of a plan above the frames `below`. -/
def follow (thread : BusThread α) (below : List (Frame α)) : Plan α → BusThread α
  | .done => { thread with frames := below }
  | .read next => { thread with frames := .listener (next thread.kept) :: below }
  | .write kept next => { thread with kept := kept, frames := .listener next :: below }
  | .use operation next =>
    let (result, bus) := thread.bus.perform operation
    { thread with bus := bus, frames := .listener (next result) :: below }
  | .publish event next =>
    { thread with
      frames := .publication thread.begun (.start thread.bus event) :: .listener next :: below
      begun := thread.begun + 1 }

/-- What listeners do, by the number of their subscription. -/
abbrev Plans (α : Type) :=
  SubscriptionId → Event → Plan α

variable (plans : Plans α)

/-- The frame of the listener that is called in its turn. -/
def called (event : Event) (target : Subscription) : List (Frame α) :=
  match target.route with
  | .callback => [.listener (plans target.id event)]
  | .channel => []

/-- A step of a publication above the frames `below`. A listener that is called goes first. -/
def serve (thread : BusThread α) (below : List (Frame α)) (number : Nat) (broadcast : Broadcast) :
    BusThread α :=
  let (bus, next) := broadcast.step (fun _ _ bus => bus) thread.bus
  { thread with
    bus := bus
    frames := broadcast.rest.head?.toList.flatMap (called plans broadcast.event) ++
      (next.map (Frame.publication number)).toList ++ below }

/-- The next step of a thread, if there is one. -/
def step (thread : BusThread α) : BusThread α :=
  match thread.frames with
  | [] => thread
  | .listener plan :: below => thread.follow below plan
  | .publication number broadcast :: below => thread.serve plans below number broadcast

/-- Takes `count` steps. -/
def play : Nat → BusThread α → BusThread α
  | 0, thread => thread
  | count + 1, thread => play count (thread.step plans)

/-- The turns taken in the next `count` steps. -/
def handovers : Nat → BusThread α → List Handover
  | 0, _ => []
  | count + 1, thread => thread.handover?.toList ++ handovers count (thread.step plans)

theorem step_of_listener {thread : BusThread α} {plan : Plan α} {below : List (Frame α)}
    (top : thread.frames = .listener plan :: below) :
    thread.step plans = thread.follow below plan := by
  simp only [step, top]

theorem step_of_publication {thread : BusThread α} {number : Nat} {broadcast : Broadcast}
    {below : List (Frame α)} (top : thread.frames = .publication number broadcast :: below) :
    thread.step plans = thread.serve plans below number broadcast := by
  simp only [step, top]

/-! ## Turns -/

/-- A step of a publication takes its first turn, if there is one. -/
theorem serve_due {thread : BusThread α} {number : Nat} {broadcast : Broadcast}
    {below : List (Frame α)} (top : thread.frames = .publication number broadcast :: below) :
    thread.handover?.toList ++ (thread.step plans).due = thread.due := by
  rw [step_of_publication plans top]
  cases turns : broadcast.rest with
  | nil => simp [handover?, due, top, serve, Broadcast.step, turns, Frame.due]
  | cons target rest =>
      have silent : (called plans broadcast.event target).flatMap Frame.due = [] := by
        unfold called
        split <;> rfl
      simp [handover?, due, top, serve, Broadcast.step, turns, Frame.due, silent]

/-- Each publication under way has a number that was given out. -/
def Numbered (thread : BusThread α) : Prop :=
  ∀ number broadcast, .publication number broadcast ∈ thread.frames → number < thread.begun

variable {plans} in
theorem Numbered.step {thread : BusThread α} (numbered : thread.Numbered) :
    (thread.step plans).Numbered := by
  intro number broadcast member
  cases top : thread.frames with
  | nil =>
      have still : thread.step plans = thread := by simp only [BusThread.step, top]
      rw [still] at member ⊢
      exact numbered _ _ member
  | cons frame below =>
      have earlier : ∀ number broadcast, .publication number broadcast ∈ below →
          number < thread.begun :=
        fun _ _ inside => numbered _ _ (top ▸ List.mem_cons_of_mem _ inside)
      cases frame with
      | listener plan =>
          rw [step_of_listener plans top] at member ⊢
          cases plan with
          | done => exact earlier _ _ member
          | read | write | use =>
              exact earlier _ _ ((List.mem_cons.1 member).resolve_left nofun)
          | publish event next =>
              rcases List.mem_cons.1 member with this | member
              · cases this
                exact Nat.lt_succ_self _
              · exact Nat.lt_succ_of_lt
                  (earlier _ _ ((List.mem_cons.1 member).resolve_left nofun))
      | publication outer broadcast' =>
          rw [step_of_publication plans top] at member ⊢
          simp only [serve, List.mem_append, List.mem_flatMap, Option.mem_toList,
            Option.map_eq_some_iff, Frame.publication.injEq, called] at member
          rcases member with (⟨target, -, calls⟩ | ⟨_, -, rfl, -⟩) | inside
          · split at calls <;> simp at calls
          · exact numbered _ _ (top ▸ List.mem_cons_self)
          · exact earlier _ _ inside

/-- A step takes a turn of a publication that has begun, or it leaves its turns as they are. -/
theorem step_due {thread : BusThread α} {number : Nat} (before : number < thread.begun) :
    thread.handover?.toList.filter (·.number == number) ++
        (thread.step plans).due.filter (·.number == number) =
      thread.due.filter (·.number == number) := by
  cases top : thread.frames with
  | nil => simp [handover?, BusThread.step, top]
  | cons frame below =>
      cases frame with
      | listener plan =>
          have none : thread.handover? = none := by simp only [handover?, top]
          rw [none, step_of_listener plans top]
          cases plan with
          | done | read | write | use => simp [due, follow, top, Frame.due]
          | publish event next =>
              have others : ((Broadcast.start thread.bus event).rest.map
                  (Handover.mk thread.begun (Broadcast.start thread.bus event).event)).filter
                    (·.number == number) = [] := by
                simp only [List.filter_eq_nil_iff, List.mem_map]
                rintro _ ⟨target, -, rfl⟩
                simpa using Nat.ne_of_gt before
              simp only [due, follow, top, List.flatMap_cons, List.filter_append, Frame.due, others,
                Option.toList_none, List.filter_nil, List.nil_append]
      | publication outer broadcast =>
          rw [← List.filter_append, serve_due plans top]

theorem begun_le_step (thread : BusThread α) : thread.begun ≤ (thread.step plans).begun := by
  cases top : thread.frames with
  | nil => simp only [BusThread.step, top, Nat.le_refl]
  | cons frame below =>
      cases frame with
      | listener plan =>
          rw [step_of_listener plans top]
          cases plan with
          | done | read | write | use => exact Nat.le_refl _
          | publish => exact Nat.le_succ _
      | publication number broadcast =>
          rw [step_of_publication plans top]
          exact Nat.le_refl _

/-- The turns of a publication that have been taken, and those that are still to be taken, are those
that it had at first, in their order. -/
theorem handovers_due (count : Nat) {thread : BusThread α} {number : Nat}
    (before : number < thread.begun) :
    (handovers plans count thread).filter (·.number == number) ++
        (play plans count thread).due.filter (·.number == number) =
      thread.due.filter (·.number == number) := by
  induction count generalizing thread with
  | zero => rfl
  | succ count ih =>
      have later := Nat.lt_of_lt_of_le before (begun_le_step plans thread)
      rw [← step_due plans before, ← ih later, handovers, List.filter_append, List.append_assoc]
      rfl

variable {plans} in
theorem Numbered.play {thread : BusThread α} (numbered : thread.Numbered) (count : Nat) :
    (play plans count thread).Numbered := by
  induction count generalizing thread with
  | zero => exact numbered
  | succ count ih => exact ih numbered.step

/-! ## What a turn does -/

/-- A step that puts a plan on top of all frames: a listener is called. -/
def Calls (thread next : BusThread α) (plan : Plan α) : Prop :=
  ∃ below, next.frames = .listener plan :: below ∧ below.length = thread.frames.length

theorem exists_of_handover? {thread : BusThread α} {handover : Handover}
    (turn : thread.handover? = some handover) :
    ∃ broadcast below rest, thread.frames = .publication handover.number broadcast :: below ∧
      broadcast.event = handover.event ∧ broadcast.rest = handover.target :: rest := by
  unfold handover? at turn
  split at turn
  · next number broadcast below top =>
    cases turns : broadcast.rest with
    | nil => simp [turns] at turn
    | cons target rest =>
        simp only [turns, List.head?_cons, Option.map_some, Option.some.injEq] at turn
        subst turn
        exact ⟨broadcast, below, rest, top, rfl, turns⟩
  · cases turn

/-- In its turn a callback is called with the event. -/
theorem step_of_callback {thread : BusThread α} {handover : Handover}
    (turn : thread.handover? = some handover) (route : handover.target.route = .callback) :
    thread.Calls (thread.step plans) (plans handover.target.id handover.event) ∧
      (thread.step plans).bus = thread.bus := by
  obtain ⟨broadcast, below, rest, top, event, turns⟩ := exists_of_handover? turn
  rw [step_of_publication plans top]
  simp only [serve, Broadcast.step, turns, EventBus.hand, called, route, event, List.head?_cons,
    Option.toList_some, List.flatMap_cons, List.flatMap_nil, Option.map_some, and_true]
  exact ⟨_, rfl, by simp [top]⟩

theorem not_calls {thread next : BusThread α}
    (few : next.frames.length ≤ thread.frames.length) (plan : Plan α) : ¬thread.Calls next plan := by
  rintro ⟨below, top, length⟩
  rw [top, List.length_cons] at few
  omega

/-- In its turn a channel gets the event behind all that waits in it, if it has a receiver; nothing
changes if it has none. -/
theorem step_of_channel {thread : BusThread α} {handover : Handover}
    (turn : thread.handover? = some handover) (route : handover.target.route = .channel) :
    (∀ plan, ¬thread.Calls (thread.step plans) plan) ∧
      (thread.step plans).bus = thread.bus.post handover.target.id handover.event := by
  obtain ⟨broadcast, below, rest, top, event, turns⟩ := exists_of_handover? turn
  rw [step_of_publication plans top]
  refine ⟨not_calls ?_, ?_⟩
  · simp [serve, Broadcast.step, turns, called, route, top]
  · simp only [serve, Broadcast.step, turns, EventBus.hand, route, event]
    split
    · rfl
    · next shut => exact (EventBus.post_of_closed (Bool.eq_false_iff.2 shut) _).symm

/-- A step that is no turn calls no listener, and queues nothing. -/
theorem step_of_quiet {thread : BusThread α} (quiet : thread.handover? = none) :
    (∀ plan, ¬thread.Calls (thread.step plans) plan) ∧
      ∀ receiver ∈ (thread.step plans).bus.receivers,
        receiver ∈ thread.bus.receivers ∨ receiver.waiting = #[] := by
  have unchanged {bus : EventBus} (same : bus.receivers = thread.bus.receivers) :
      ∀ receiver ∈ bus.receivers, receiver ∈ thread.bus.receivers ∨ receiver.waiting = #[] :=
    fun _ member => .inl (same ▸ member)
  cases top : thread.frames with
  | nil =>
      have still : thread.step plans = thread := by simp only [BusThread.step, top]
      rw [still]
      exact ⟨not_calls (Nat.le_refl _), unchanged rfl⟩
  | cons frame below =>
      cases frame with
      | listener plan =>
          rw [step_of_listener plans top]
          cases plan with
          | done => exact ⟨not_calls (by simp [follow, top]), unchanged rfl⟩
          | read | write => exact ⟨not_calls (by simp [follow, top]), unchanged rfl⟩
          | use operation =>
              exact ⟨not_calls (by simp [follow, top]), EventBus.receivers_perform _ operation⟩
          | publish event next =>
              refine ⟨?_, unchanged rfl⟩
              rintro plan ⟨_, other, -⟩
              cases other
      | publication number broadcast =>
          have spent : broadcast.rest = [] := by
            simpa [handover?, top] using quiet
          rw [step_of_publication plans top]
          refine ⟨not_calls ?_, unchanged ?_⟩
          · simp [serve, Broadcast.step, spent, top]
          · simp only [serve, Broadcast.step, spent]
            rfl

end BusThread

end RenderFarm
