import RenderFarm.Event

/-!
# The event bus

Events are published to subscriptions, each with the kinds it wants. A subscription either is a
callback, which is called while the event is published, or has a channel, in which events wait
until they are received.

A publication goes to the subscriptions that were there when it began, in the order in which they
were made. Callbacks may use the bus themselves, whatever they do to it and to the world around it:
`publish` takes their effect as a function on any world that holds a bus. A channel without a
receiver is found closed when its turn comes, and closed subscriptions are removed at the end.
-/

namespace RenderFarm

/-- Names a subscription for the life of the bus. -/
structure SubscriptionId where
  number : UInt64
  deriving DecidableEq, Inhabited, Repr

def SubscriptionId.describe (id : SubscriptionId) : String :=
  s!"SubscriptionId({id.number})"

/-- How a subscription gets its events. -/
inductive Route where
  | callback
  | channel
  deriving DecidableEq, Repr

structure Subscription where
  id : SubscriptionId
  kinds : EventKinds
  route : Route
  deriving DecidableEq

/-- The receiver of a channel, with the events that wait in it. -/
structure Receiver where
  id : SubscriptionId
  waiting : Array Event

structure EventBus where
  /-- The number of the next subscription. -/
  nextNumber : UInt64
  /-- The subscriptions in the order in which they were made. -/
  subscriptions : List Subscription
  /-- The receivers that still exist, subscribed or not. -/
  receivers : List Receiver

namespace EventBus

def empty : EventBus :=
  ⟨0, [], []⟩

def add (bus : EventBus) (kinds : EventKinds) (route : Route) : SubscriptionId × EventBus :=
  let id : SubscriptionId := ⟨bus.nextNumber⟩
  (id,
    { bus with
      nextNumber := bus.nextNumber + 1
      subscriptions := bus.subscriptions ++ [⟨id, kinds, route⟩] })

/-- Makes a callback subscription. -/
def subscribe (bus : EventBus) (kinds : EventKinds) : SubscriptionId × EventBus :=
  bus.add kinds .callback

/-- Makes a channel subscription together with its receiver. -/
def openChannel (bus : EventBus) (kinds : EventKinds) : SubscriptionId × EventBus :=
  let (id, next) := bus.add kinds .channel
  (id, { next with receivers := next.receivers ++ [⟨id, #[]⟩] })

def remove (bus : EventBus) (gone : SubscriptionId → Bool) : EventBus :=
  { bus with subscriptions := bus.subscriptions.filter fun s => !gone s.id }

/-- Removes a subscription and tells whether it was there. Its receiver stays. -/
def unsubscribe (bus : EventBus) (id : SubscriptionId) : Bool × EventBus :=
  (bus.subscriptions.any (·.id == id), bus.remove (· == id))

/-- The number of subscriptions. -/
def count (bus : EventBus) : Nat :=
  bus.subscriptions.length

/-! ## Receivers -/

def isOpen (bus : EventBus) (id : SubscriptionId) : Bool :=
  bus.receivers.any (·.id == id)

/-- Queues an event behind all that waits in a channel. -/
def post (bus : EventBus) (id : SubscriptionId) (event : Event) : EventBus :=
  { bus with receivers := bus.receivers.map fun receiver =>
      if receiver.id = id then ⟨id, receiver.waiting.push event⟩ else receiver }

/-- Takes all events that wait in a channel; none when there is no receiver. -/
def receive (bus : EventBus) (id : SubscriptionId) : Option (List Event) × EventBus :=
  ((bus.receivers.find? (·.id == id)).map (·.waiting.toList),
    { bus with receivers := bus.receivers.map fun receiver =>
        if receiver.id = id then ⟨id, #[]⟩ else receiver })

/-- Drops a receiver and tells whether there was one. -/
def dropReceiver (bus : EventBus) (id : SubscriptionId) : Bool × EventBus :=
  (bus.isOpen id, { bus with receivers := bus.receivers.filter (·.id != id) })

/-- Whatever happens to its queue, a receiver keeps its number. -/
theorem id_comp_requeue (target id : SubscriptionId) (queue : Receiver → Array Event) :
    ((fun receiver : Receiver => receiver.id == id) ∘ fun receiver =>
      if receiver.id = target then ⟨target, queue receiver⟩ else receiver) =
        fun receiver => receiver.id == id := by
  funext receiver
  simp only [Function.comp_apply]
  split <;> simp_all

@[simp]
theorem isOpen_post (bus : EventBus) (target : SubscriptionId) (event : Event)
    (id : SubscriptionId) : (bus.post target event).isOpen id = bus.isOpen id := by
  simp only [isOpen, post, List.any_map, id_comp_requeue]

@[simp]
theorem isOpen_receive (bus : EventBus) (taken id : SubscriptionId) :
    (bus.receive taken).2.isOpen id = bus.isOpen id := by
  simp only [isOpen, receive, List.any_map, id_comp_requeue taken id fun _ => #[]]

/-- To drop a receiver closes no other channel. -/
theorem isOpen_dropReceiver {bus : EventBus} {dropped id : SubscriptionId} (other : id ≠ dropped) :
    (bus.dropReceiver dropped).2.isOpen id = bus.isOpen id := by
  simp only [isOpen, dropReceiver, List.any_filter]
  congr 1
  funext receiver
  by_cases same : receiver.id = id <;> simp [same, other]

/-! ## Publishing -/

/-- The subscriptions that want an event, in order. -/
def targets (bus : EventBus) (event : Event) : List Subscription :=
  bus.subscriptions.filter (·.kinds.has event.kind)

/-- A world with a bus in it. -/
class Holder (ω : Type) where
  bus : ω → EventBus
  setBus : ω → EventBus → ω
  bus_setBus : ∀ world bus', bus (setBus world bus') = bus'

instance : Holder EventBus := ⟨id, fun _ bus => bus, fun _ _ => rfl⟩

variable {ω : Type} [Holder ω]

/-- Hands an event to one subscription; gives the world after it and the channels found closed so
far. -/
def hand (call : SubscriptionId → Event → ω → ω) (event : Event)
    (progress : ω × List SubscriptionId) (target : Subscription) : ω × List SubscriptionId :=
  let (world, closed) := progress
  match target.route with
  | .callback => (call target.id event world, closed)
  | .channel =>
    if (Holder.bus world).isOpen target.id then
      (Holder.setBus world ((Holder.bus world).post target.id event), closed)
    else (world, closed ++ [target.id])

/-- Removes the channels found closed. -/
def prune (world : ω) (closed : List SubscriptionId) : ω :=
  Holder.setBus world ((Holder.bus world).remove closed.contains)

/-- Publishes an event, with `call` for what a callback does to the world. -/
def publish (call : SubscriptionId → Event → ω → ω) (event : Event) (world : ω) : ω :=
  let (last, closed) := ((Holder.bus world).targets event).foldl (hand call event) (world, [])
  prune last closed

def describe (bus : EventBus) : String :=
  s!"EventBus \x7b subscribers: {bus.count} \x7d"

end EventBus

end RenderFarm
