import RenderFarm.Proofs.Event.Broadcast

/-!
# What one subscriber hears

`Feeds` says that a function of the farm takes in, one by one, those events that a subscription was handed
and that are picked: it changes when such an event is handed to that subscription, and not otherwise.
`Follows` is the case in which it puts them on a list. A callback that keeps a record is an instance
(`follows_callback`), and so is the queue of a channel that nobody takes events from (`follows_channel`).
A subscription that stays is handed every event picked once in the course of its publication
(`Feeds.broadcast`).
-/

namespace RenderFarm

/-- Whether an event is one of those that a display follows. -/
def Event.isOfRender (event : Event) : Bool :=
  EventKinds.render.has event.kind

/-- The event of a line in a render of a given size. -/
def Event.ofLine (size : Dimensions) (line : UInt32 × List UInt32) : Event :=
  .lineComputed line.1 size line.2

theorem Event.isOfRender_sceneLoaded (size : Dimensions) :
    (Event.sceneLoaded size).isOfRender = true := by
  simp only [isOfRender, kind]
  decide

theorem Event.isOfRender_ofLine (size : Dimensions) (line : UInt32 × List UInt32) :
    (Event.ofLine size line).isOfRender = true := by
  simp only [isOfRender, ofLine, kind]
  decide

theorem Event.isOfRender_sceneRendered (elapsed : Nat) :
    (Event.sceneRendered elapsed).isOfRender = true := by
  simp only [isOfRender, kind]
  decide

theorem Event.isOfRender_stdoutWritten (text : String) :
    (Event.stdoutWritten text).isOfRender = false := by
  simp only [isOfRender, kind]
  decide

theorem Event.isOfRender_evalError (message : String) :
    (Event.evalError message).isOfRender = false := by
  simp only [isOfRender, kind]
  decide

/-- A subscription to all kinds of a render is one to each. -/
theorem EventKinds.has_of_contains {kinds : EventKinds} (all : kinds.contains .render = true)
    {kind : EventKind} (inside : EventKinds.render.has kind = true) : kinds.has kind = true := by
  obtain ⟨bits⟩ := kinds
  have covered : bits &&& 7 = 7 := by simpa [contains, EventKinds.render] using all
  have one : ∀ bit : UInt8, 7 &&& bit = bit → bits &&& bit = bit := by
    intro bit below
    rw [← below, ← UInt8.and_assoc, covered]
  cases kind with
  | sceneLoaded | lineComputed | sceneRendered =>
      simp only [has, single, intersects, EventKind.bit]
      rw [one _ (by decide)]
      decide
  | evalError | stdoutWritten => exact absurd inside (by decide)

/-- A subscription is on the list, once, and its channel, if it has one, is open. -/
structure EventBus.Lists (bus : EventBus) (subscription : Subscription) : Prop where
  once : bus.subscriptions.filter (·.id == subscription.id) = [subscription]
  opened : subscription.route = .channel → bus.isOpen subscription.id = true

instance (bus : EventBus) (subscription : Subscription) : Decidable (bus.Lists subscription) :=
  decidable_of_iff (bus.subscriptions.filter (·.id == subscription.id) = [subscription] ∧
      (subscription.route = .channel → bus.isOpen subscription.id = true))
    ⟨fun ⟨once, opened⟩ => ⟨once, opened⟩, fun lists => ⟨lists.once, lists.opened⟩⟩

namespace Broadcast

/-- The turns that a subscription still has in a publication. -/
def due (broadcast : Broadcast) (subscription : Subscription) : List Subscription :=
  broadcast.rest.filter (·.id == subscription.id)

/-- A publication comes to a subscription once. -/
def Serves (broadcast : Broadcast) (subscription : Subscription) : Prop :=
  broadcast.due subscription = [subscription] ∨ broadcast.due subscription = []

/-- What a subscription was handed by a publication. -/
def told (broadcast : Broadcast) (subscription : Subscription) : List Event :=
  if broadcast.due subscription = [] then [broadcast.event] else []

/-- What more a publication tells is its event, the first time. -/
theorem told_append {broadcast next : Broadcast} {subscription : Subscription} {more : List Event}
    (further : next.told subscription = broadcast.told subscription ++ more)
    (same : next.event = broadcast.event) :
    more = [] ∨ broadcast.told subscription = [] ∧ more = [broadcast.event] := by
  unfold told at *
  by_cases first : broadcast.due subscription = []
  · rw [if_pos first] at further
    split at further
    · exact .inl (List.cons.inj further).2.symm
    · cases further
  · rw [if_neg first] at further ⊢
    split at further
    · exact .inr ⟨rfl, by rw [← same]; exact further.symm⟩
    · exact .inl further.symm

theorem due_start {bus : EventBus} {subscription : Subscription} (lists : bus.Lists subscription)
    {event : Event} (wanted : subscription.kinds.has event.kind = true) :
    (start bus event).due subscription = [subscription] := by
  have swapped : (start bus event).due subscription =
      (bus.subscriptions.filter (·.id == subscription.id)).filter (·.kinds.has event.kind) := by
    simp only [due, start, EventBus.targets, List.filter_filter, Bool.and_comm]
  rw [swapped, lists.once]
  simp [wanted]

theorem serves_start {bus : EventBus} {subscription : Subscription} (lists : bus.Lists subscription)
    {event : Event} (wanted : subscription.kinds.has event.kind = true) :
    (start bus event).Serves subscription ∧ (start bus event).told subscription = [] := by
  have due := due_start lists wanted
  exact ⟨.inl due, by simp [told, due]⟩

end Broadcast

variable {ε σ Audience : Type}

/-- A function of the farm that takes in what a subscription is handed of the events picked. -/
structure Listeners.Feeds {γ : Type} (listeners : Listeners ε σ Audience)
    (subscription : Subscription) (picks : Event → Bool) (take : γ → Event → γ)
    (view : Farm ε σ Audience → γ) : Prop where
  same : ∀ farm other, other.audience = farm.audience →
    other.bus.receivers = farm.bus.receivers → view other = view farm
  noted : ∀ report farm, view (farm.notice listeners report) = view farm
  handed : ∀ event progress, picks event = true →
    (subscription.route = .channel → progress.1.bus.isOpen subscription.id = true) →
    view (EventBus.hand listeners.onEvent event progress subscription).1 =
      take (view progress.1) event
  passed : ∀ event progress target, target.id ≠ subscription.id ∨ picks event = false →
    view (EventBus.hand listeners.onEvent event progress target).1 = view progress.1

/-- Puts an event on record. -/
def Event.noted (heard : List Event) (event : Event) : List Event :=
  heard ++ [event]

theorem Event.foldl_noted (before events : List Event) :
    events.foldl noted before = before ++ events := by
  induction events generalizing before with
  | nil => exact (List.append_nil before).symm
  | cons event rest ih => exact (ih _).trans (List.append_assoc ..)

/-- A function of the farm that is what a subscription was handed of the events picked. -/
abbrev Listeners.Follows (listeners : Listeners ε σ Audience) (subscription : Subscription)
    (picks : Event → Bool) (heard : Farm ε σ Audience → List Event) : Prop :=
  listeners.Feeds subscription picks Event.noted heard

section Instances

variable {listeners : Listeners ε σ Audience} {id : SubscriptionId} {picks : Event → Bool}

/-- A callback that takes in the events picked. -/
theorem Listeners.feeds_callback {γ : Type} {take : γ → Event → γ} (keep : Audience → γ)
    (kinds : EventKinds)
    (own : ∀ event farm, keep (listeners.onEvent id event farm).audience =
      if picks event then take (keep farm.audience) event else keep farm.audience)
    (others : ∀ other, other ≠ id → ∀ event farm,
      keep (listeners.onEvent other event farm).audience = keep farm.audience)
    (noted : ∀ report audience, keep (listeners.onState report audience) = keep audience) :
    listeners.Feeds ⟨id, kinds, .callback⟩ picks take fun farm => keep farm.audience where
  same := fun farm other audience _ => by rw [audience]
  noted := fun report farm => noted report farm.audience
  handed := by
    intro event progress picked _
    simp only [EventBus.hand, own, picked, if_true]
  passed := by
    intro event progress target reason
    unfold EventBus.hand
    dsimp only
    split
    · by_cases same : target.id = id
      · have other : picks event = false := reason.resolve_left fun different => different same
        rw [same, own, other]
        rfl
      · exact others _ same _ _
    · split <;> rfl

/-- A callback that keeps a record of the events picked hears what is on record. -/
theorem Listeners.follows_callback (record : Audience → List Event) (kinds : EventKinds)
    (own : ∀ event farm, record (listeners.onEvent id event farm).audience =
      if picks event then record farm.audience ++ [event] else record farm.audience)
    (others : ∀ other, other ≠ id → ∀ event farm,
      record (listeners.onEvent other event farm).audience = record farm.audience)
    (noted : ∀ report audience, record (listeners.onState report audience) = record audience) :
    listeners.Follows ⟨id, kinds, .callback⟩ picks fun farm => record farm.audience :=
  feeds_callback record kinds own others noted

/-- The events that wait in a channel and are picked. -/
def EventBus.waitingOf (bus : EventBus) (picks : Event → Bool) (id : SubscriptionId) : List Event :=
  ((bus.receivers.find? (·.id == id)).map fun receiver =>
    receiver.waiting.toList.filter picks).getD []

theorem EventBus.waitingOf_post (bus : EventBus) (target : SubscriptionId) (event : Event) :
    (bus.post target event).waitingOf picks id = bus.waitingOf picks id ++
      if target = id ∧ picks event = true ∧ bus.isOpen id = true then [event] else [] := by
  have opened : bus.isOpen id = (bus.receivers.find? (·.id == id)).isSome :=
    List.isSome_find?.symm
  simp only [waitingOf, post, List.find?_map, id_comp_requeue, opened]
  cases found : bus.receivers.find? (·.id == id) with
  | none => simp
  | some receiver =>
      have own : receiver.id = id := by simpa using List.find?_some found
      by_cases same : target = id
      · cases picked : picks event <;> simp [own, same, picked]
      · have different : receiver.id ≠ target := fun also => same (also.symm.trans own)
        simp [same, different]

/-- A channel that nobody takes events from hears what waits in it. -/
theorem Listeners.follows_channel (kinds : EventKinds)
    (others : ∀ other event farm,
      (listeners.onEvent other event farm).bus.waitingOf picks id = farm.bus.waitingOf picks id) :
    listeners.Follows ⟨id, kinds, .channel⟩ picks fun farm => farm.bus.waitingOf picks id where
  same := fun farm other _ receivers => by simp only [EventBus.waitingOf, receivers]
  noted := fun report farm => rfl
  handed := by
    intro event progress picked opened
    have opened : progress.1.bus.isOpen id = true := opened rfl
    simp only [EventBus.hand, EventBus.Holder.bus, opened, if_true]
    refine (EventBus.waitingOf_post progress.1.bus id event).trans ?_
    rw [if_pos ⟨rfl, picked, opened⟩]
    rfl
  passed := by
    intro event progress target reason
    unfold EventBus.hand
    dsimp only
    split
    · exact others _ _ _
    · split
      · refine (EventBus.waitingOf_post progress.1.bus target.id event).trans ?_
        have other : ¬(target.id = id ∧ picks event = true ∧
            progress.1.bus.isOpen id = true) := by
          rintro ⟨same, picked, -⟩
          rcases reason with different | unrelated
          · exact different same
          · rw [picked] at unrelated
            cases unrelated
        rw [if_neg other, List.append_nil]
      · rfl

end Instances

namespace Listeners.Feeds

variable {γ : Type} {listeners : Listeners ε σ Audience} {subscription : Subscription}
  {picks : Event → Bool} {take : γ → Event → γ} {view : Farm ε σ Audience → γ}
  (feeds : listeners.Feeds subscription picks take view)
include feeds

/-- A publication of an event that is not picked feeds nothing. -/
theorem publish_of_unpicked {event : Event} (unpicked : picks event = false)
    (farm : Farm ε σ Audience) : view (farm.publish listeners event) = view farm :=
  EventBus.publish_keeps (P := fun other => view other = view farm)
    (fun _ _ before => (feeds.passed _ _ _ (.inr unpicked)).trans before)
    (fun other closed before => (feeds.same other (EventBus.prune other closed) rfl rfl).trans before)
    rfl

/-- Where no output is picked, workers and their effects feed nothing. -/
theorem keeps (deaf : ∀ text, picks (.stdoutWritten text) = false) (value : γ) :
    Farm.Keeps listeners fun farm => view farm = value where
  setWorker := fun farm id worker kept =>
    (feeds.same farm (farm.setWorker id worker) rfl rfl).trans kept
  perform := by
    intro id farm effect kept
    cases effect with
    | reported report => exact (feeds.noted report farm).trans kept
    | wrote text =>
        unfold Farm.perform
        dsimp only
        split
        · exact (feeds.publish_of_unpicked (deaf text) farm).trans kept
        · exact kept

/-- What a step of the publication of an event picked feeds, it adds to what the publication has told. At
the end it has told the event. -/
theorem broadcast {broadcast : Broadcast} (picked : picks broadcast.event = true)
    (serves : broadcast.Serves subscription) {farm after : Farm ε σ Audience}
    (lists : farm.bus.Lists subscription) {next : Option Broadcast}
    (stepped : broadcast.step listeners.onEvent farm = (after, next)) :
    match next with
    | some next => next.Serves subscription ∧ ∃ more, view after = more.foldl take (view farm) ∧
        next.told subscription = broadcast.told subscription ++ more
    | none => view after = view farm ∧ broadcast.told subscription = [broadcast.event] := by
  cases left : broadcast.rest with
  | nil =>
      rw [broadcast.step_nil listeners.onEvent left] at stepped
      cases stepped
      refine ⟨?_, by simp [Broadcast.told, Broadcast.due, left]⟩
      simp only [Broadcast.finish, left, List.foldl_nil]
      exact feeds.same farm (EventBus.prune farm broadcast.closed) rfl rfl
  | cons target rest =>
      obtain ⟨closed, handing, -⟩ := broadcast.step_cons listeners.onEvent left farm
      rw [handing] at stepped
      cases stepped
      unfold Broadcast.Serves Broadcast.told Broadcast.due at *
      rw [left, List.filter_cons] at serves ⊢
      by_cases own : target.id = subscription.id
      · -- It is the turn of the subscription, which has no other.
        simp only [own, beq_self_eq_true, if_true, List.cons.injEq, reduceCtorEq, or_false]
          at serves ⊢
        obtain ⟨rfl, none⟩ := serves
        refine ⟨.inr none, [broadcast.event], feeds.handed _ _ picked lists.opened, ?_⟩
        simp [none]
      · have other : (target.id == subscription.id) = false := by simpa using own
        simp only [other] at serves ⊢
        exact ⟨serves, [], feeds.passed _ _ _ (.inl own), by simp⟩

/-- As long as what a publication has told was fed last, this is so after each step. -/
theorem recounts {broadcast : Broadcast} (picked : picks broadcast.event = true)
    (serves : broadcast.Serves subscription) {farm after : Farm ε σ Audience}
    (lists : farm.bus.Lists subscription) {next : Option Broadcast}
    (stepped : broadcast.step listeners.onEvent farm = (after, next)) {earlier : γ}
    (known : view farm = (broadcast.told subscription).foldl take earlier) :
    match next with
    | some next => next.event = broadcast.event ∧ next.Serves subscription ∧
        view after = (next.told subscription).foldl take earlier
    | none => view after = take earlier broadcast.event := by
  have further := feeds.broadcast picked serves lists stepped
  cases next with
  | some next =>
      obtain ⟨still, more, same, told⟩ := further
      refine ⟨Broadcast.event_of_step _ stepped, still, ?_⟩
      rw [same, known, told, List.foldl_append]
  | none =>
      obtain ⟨same, all⟩ := further
      rw [same, known, all]
      rfl

end Listeners.Feeds

namespace Listeners.Follows

variable {listeners : Listeners ε σ Audience} {subscription : Subscription}
  {picks : Event → Bool} {heard : Farm ε σ Audience → List Event}
  (follows : listeners.Follows subscription picks heard)
include follows

/-- As long as what was heard ends in what a publication has told, it does so after each step. -/
theorem recounts {broadcast : Broadcast} (picked : picks broadcast.event = true)
    (serves : broadcast.Serves subscription) {farm after : Farm ε σ Audience}
    (lists : farm.bus.Lists subscription) {next : Option Broadcast}
    (stepped : broadcast.step listeners.onEvent farm = (after, next)) {earlier : List Event}
    (known : heard farm = earlier ++ broadcast.told subscription) :
    match next with
    | some next => next.event = broadcast.event ∧ next.Serves subscription ∧
        heard after = earlier ++ next.told subscription
    | none => heard after = earlier ++ [broadcast.event] := by
  rw [← Event.foldl_noted] at known
  have further := Feeds.recounts follows picked serves lists stepped known
  cases next with
  | some next => simpa only [Event.foldl_noted] using further
  | none => exact further

end Listeners.Follows

end RenderFarm
