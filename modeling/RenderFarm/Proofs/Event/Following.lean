import RenderFarm.Proofs.Event.Hearing

/-!
# Subscriptions that stay

Callbacks may change the bus while an event is published. Where none of them takes a subscription off
the list or drops its receiver (`Listeners.Retains`), it is still there when the publication is over,
and takes in an event that it wants once (`Listeners.Feeds.publish`).
-/

namespace RenderFarm

namespace EventBus.Lists

variable {bus : EventBus} {subscription : Subscription} (lists : bus.Lists subscription)
include lists

theorem post (target : SubscriptionId) (event : Event) :
    (bus.post target event).Lists subscription where
  once := lists.once
  opened := fun routed => (isOpen_post ..).trans (lists.opened routed)

/-- Other channels are removed without it. -/
theorem remove {closed : List SubscriptionId} (spared : subscription.id ∉ closed) :
    (bus.remove closed.contains).Lists subscription where
  once := by
    have same : (bus.remove closed.contains).subscriptions.filter (·.id == subscription.id) =
        bus.subscriptions.filter (·.id == subscription.id) := by
      simp only [EventBus.remove, List.filter_filter]
      refine List.filter_congr fun other _ => ?_
      by_cases own : other.id = subscription.id <;> simp [own, spared]
    rw [same, lists.once]
  opened := lists.opened

/-- It is the only one of its number. -/
theorem eq_of_mem {other : Subscription} (member : other ∈ bus.subscriptions)
    (same : other.id = subscription.id) : other = subscription := by
  have among : other ∈ bus.subscriptions.filter (·.id == subscription.id) :=
    List.mem_filter.2 ⟨member, by simp [same]⟩
  rw [lists.once] at among
  exact List.mem_singleton.1 among

end EventBus.Lists

/-- A publication has no turn for another subscription of the same number, and has not found this one
closed. -/
structure Broadcast.Spares (broadcast : Broadcast) (subscription : Subscription) : Prop where
  alone : ∀ target ∈ broadcast.rest, target.id = subscription.id → target = subscription
  unclosed : subscription.id ∉ broadcast.closed

theorem Broadcast.spares_start {bus : EventBus} {subscription : Subscription}
    (lists : bus.Lists subscription) (event : Event) : (start bus event).Spares subscription where
  alone := fun _ member => lists.eq_of_mem (List.mem_filter.1 member).1
  unclosed := List.not_mem_nil

variable {ε σ Audience : Type}

/-- Callbacks leave a subscription on the list, and its channel open. -/
def Listeners.Retains (listeners : Listeners ε σ Audience) (subscription : Subscription) : Prop :=
  ∀ id event farm, farm.bus.Lists subscription →
    (listeners.onEvent id event farm).bus.Lists subscription

variable {listeners : Listeners ε σ Audience} {subscription : Subscription}

namespace Listeners.Retains

variable (retains : listeners.Retains subscription)
include retains

theorem step {broadcast : Broadcast} (spares : broadcast.Spares subscription)
    {farm after : Farm ε σ Audience} (lists : farm.bus.Lists subscription) {next : Option Broadcast}
    (stepped : broadcast.step listeners.onEvent farm = (after, next)) :
    after.bus.Lists subscription ∧ ∀ rest ∈ next, rest.Spares subscription := by
  unfold Broadcast.step at stepped
  split at stepped
  · cases stepped
    exact ⟨lists.remove spares.unclosed, nofun⟩
  · next target rest left =>
    cases stepped
    have alone : ∀ other ∈ rest, other.id = subscription.id → other = subscription :=
      fun other member => spares.alone other (left ▸ .tail _ member)
    split
    · refine ⟨retains _ _ _ lists, ?_⟩
      rintro _ ⟨⟩
      exact ⟨alone, spares.unclosed⟩
    · next routed =>
      split
      · refine ⟨lists.post _ _, ?_⟩
        rintro _ ⟨⟩
        exact ⟨alone, spares.unclosed⟩
      · next closed =>
        refine ⟨lists, ?_⟩
        rintro _ ⟨⟩
        refine ⟨alone, fun member => ?_⟩
        rcases List.mem_append.1 member with before | last
        · exact spares.unclosed before
        · have own := List.mem_singleton.1 last
          obtain rfl := spares.alone target (left ▸ .head _) own.symm
          exact closed (lists.opened routed)

theorem finish {broadcast : Broadcast} (spares : broadcast.Spares subscription)
    {farm : Farm ε σ Audience} (lists : farm.bus.Lists subscription) :
    (broadcast.finish listeners.onEvent farm).bus.Lists subscription := by
  obtain ⟨event, rest, closed⟩ := broadcast
  induction rest generalizing farm closed with
  | nil => exact (retains.step spares lists (Broadcast.step_nil _ rfl farm)).1
  | cons target rest ih =>
      obtain ⟨closed, handing, same⟩ :=
        (⟨event, target :: rest, closed⟩ : Broadcast).step_cons listeners.onEvent rfl farm
      obtain ⟨lists, spares⟩ := retains.step spares lists handing
      exact same ▸ ih lists closed (spares _ rfl)

theorem publish (event : Event) {farm : Farm ε σ Audience} (lists : farm.bus.Lists subscription) :
    (farm.publish listeners event).bus.Lists subscription :=
  retains.finish (Broadcast.spares_start lists event) lists

theorem keeps : Farm.Keeps listeners fun farm => farm.bus.Lists subscription where
  setWorker := fun _ _ _ lists => lists
  perform := by
    intro id farm effect lists
    cases effect with
    | reported report => exact lists
    | wrote text =>
        unfold Farm.perform
        dsimp only
        split
        · exact retains.publish _ lists
        · exact lists

end Listeners.Retains

namespace Listeners.Feeds

variable {γ : Type} {picks : Event → Bool} {take : γ → Event → γ} {view : Farm ε σ Audience → γ}
  (feeds : listeners.Feeds subscription picks take view) (retains : listeners.Retains subscription)
include feeds retains

theorem finish {broadcast : Broadcast} (picked : picks broadcast.event = true)
    (serves : broadcast.Serves subscription) (spares : broadcast.Spares subscription)
    {farm : Farm ε σ Audience} (lists : farm.bus.Lists subscription) {earlier : γ}
    (known : view farm = (broadcast.told subscription).foldl take earlier) :
    view (broadcast.finish listeners.onEvent farm) = take earlier broadcast.event := by
  obtain ⟨event, rest, closed⟩ := broadcast
  induction rest generalizing farm closed with
  | nil => exact feeds.recounts picked serves lists (Broadcast.step_nil _ rfl farm) known
  | cons target rest ih =>
      obtain ⟨closed, handing, same⟩ :=
        (⟨event, target :: rest, closed⟩ : Broadcast).step_cons listeners.onEvent rfl farm
      obtain ⟨-, serves, known⟩ := feeds.recounts picked serves lists handing known
      obtain ⟨lists, spares⟩ := retains.step spares lists handing
      exact same ▸ ih lists closed picked serves (spares _ rfl) known

/-- An event that is wanted and picked is taken in once. -/
theorem publish (event : Event) (picked : picks event = true)
    (wanted : subscription.kinds.has event.kind = true) {farm : Farm ε σ Audience}
    (lists : farm.bus.Lists subscription) :
    view (farm.publish listeners event) = take (view farm) event := by
  obtain ⟨serves, silent⟩ := Broadcast.serves_start lists wanted
  exact feeds.finish retains picked serves (Broadcast.spares_start lists event) lists
    (by rw [silent, List.foldl_nil])

end Listeners.Feeds

end RenderFarm
