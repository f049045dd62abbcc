import RenderFarm.Proofs.Farm.Frame

/-!
# Publications, one subscription at a time

`EventBus.publish` is a publication in one piece. While a thread publishes, others go on, and callbacks
that it has called may have changed the bus by the time it comes to the next subscription. A
`Broadcast` is a publication under way: its targets are those of the moment when it began, and every
step hands the event to the next of them, until the last step removes the channels found closed.
-/

namespace RenderFarm

structure Broadcast where
  event : Event
  /-- The subscriptions whose turn is still to come. -/
  rest : List Subscription
  /-- The channels found closed so far. -/
  closed : List SubscriptionId
  deriving DecidableEq

namespace Broadcast

def start (bus : EventBus) (event : Event) : Broadcast :=
  ⟨event, bus.targets event, []⟩

variable {ω : Type} [EventBus.Holder ω] (call : SubscriptionId → Event → ω → ω)

/-- The next step of a publication, after which it may be over. -/
def step (broadcast : Broadcast) (world : ω) : ω × Option Broadcast :=
  match broadcast.rest with
  | [] => (EventBus.prune world broadcast.closed, none)
  | target :: rest =>
    let (world, closed) := EventBus.hand call broadcast.event (world, broadcast.closed) target
    (world, some ⟨broadcast.event, rest, closed⟩)

/-- All steps that are left, in one piece. -/
def finish (broadcast : Broadcast) (world : ω) : ω :=
  let (last, closed) :=
    broadcast.rest.foldl (EventBus.hand call broadcast.event) (world, broadcast.closed)
  EventBus.prune last closed

/-- A publication in one piece is a broadcast from the start to the end. -/
theorem publish_eq_finish (event : Event) (world : ω) :
    EventBus.publish call event world = (start (EventBus.Holder.bus world) event).finish call world :=
  rfl

theorem step_nil {broadcast : Broadcast} (spent : broadcast.rest = []) (world : ω) :
    broadcast.step call world = (broadcast.finish call world, none) := by
  simp only [step, finish, spent, List.foldl_nil]

theorem step_cons {broadcast : Broadcast} {target : Subscription} {rest : List Subscription}
    (next : broadcast.rest = target :: rest) (world : ω) :
    ∃ closed, broadcast.step call world =
        ((EventBus.hand call broadcast.event (world, broadcast.closed) target).1,
          some ⟨broadcast.event, rest, closed⟩) ∧
      finish call ⟨broadcast.event, rest, closed⟩
          (EventBus.hand call broadcast.event (world, broadcast.closed) target).1 =
        broadcast.finish call world := by
  refine ⟨(EventBus.hand call broadcast.event (world, broadcast.closed) target).2, ?_, ?_⟩
  · simp only [step, next]
  · simp only [finish, next, List.foldl_cons]

/-- A publication is of one event. -/
theorem event_of_step {broadcast next : Broadcast} {world after : ω}
    (stepped : broadcast.step call world = (after, some next)) : next.event = broadcast.event := by
  unfold step at stepped
  split at stepped
  · cases stepped
  · cases stepped
    rfl

end Broadcast

namespace Farm

variable {ε σ Audience : Type} {listeners : Listeners ε σ Audience} {P : Farm ε σ Audience → Prop}

/-- A step of a publication keeps what lasts. -/
theorem Lasting.broadcast (lasting : Lasting listeners P) (broadcast : Broadcast)
    {farm : Farm ε σ Audience} (holds : P farm) :
    P (broadcast.step listeners.onEvent farm).1 := by
  unfold Broadcast.step
  split
  · exact lasting.bus _ _ holds
  · exact lasting.hand _ _ _ holds

end Farm

end RenderFarm
