import Mathlib.Algebra.GroupWithZero.Nat
import Mathlib.Data.List.Nodup
import RenderFarm.Proofs.Event.Delivery

/-!
# The list of subscriptions

A thread that uses a bus makes subscriptions and takes some off the list again: those that are
unsubscribed, and channels without a receiver that a publication came to. The two ways cross each other,
since a publication removes at its end what it found closed on its way, whatever the listeners that it
called have done to the list meanwhile.

Subscriptions are numbered as they are made, and those on the list are, in this order, all that were made
less all that went (`Accounts`). Each publication under way has found closed only channels whose receivers
were dropped before (`Traced`). So none goes but by a call of `unsubscribe` or for want of a receiver
(`subscriptions_accounted`).
-/

namespace RenderFarm

namespace BusThread

variable {α β : Type} (plans : Plans α)

/-- The subscription that the next step makes, under the number that comes back. -/
def making? (thread : BusThread α) : Option Subscription :=
  match thread.frames with
  | .listener (.use (.subscribe kinds) _) :: _ =>
    some ⟨(thread.bus.subscribe kinds).1, kinds, .callback⟩
  | .listener (.use (.openChannel kinds) _) :: _ =>
    some ⟨(thread.bus.openChannel kinds).1, kinds, .channel⟩
  | _ => none

/-- The subscription that the next step unsubscribes, if it was there. -/
def withdrawing? (thread : BusThread α) : Option SubscriptionId :=
  match thread.frames with
  | .listener (.use (.unsubscribe id) _) :: _ =>
    if (thread.bus.unsubscribe id).1 then some id else none
  | _ => none

/-- The subscriptions that the next step takes off the list. -/
def leaving (thread : BusThread α) : List Subscription :=
  thread.bus.subscriptions.filter fun subscription =>
    subscription ∉ (thread.step plans).bus.subscriptions

/-- The next step drops a receiver. -/
def Drops (thread : BusThread α) (id : SubscriptionId) : Prop :=
  ∃ next below, thread.frames = .listener (.use (.dropReceiver id) next) :: below

/-- What is seen in the next `count` steps. -/
def seen (see : BusThread α → List β) : Nat → BusThread α → List β
  | 0, _ => []
  | count + 1, thread => see thread ++ seen see count (thread.step plans)

/-- The subscriptions made in the next `count` steps. -/
def made (count : Nat) (thread : BusThread α) : List Subscription :=
  seen plans (fun thread => thread.making?.toList) count thread

/-- The subscriptions that go off the list in the next `count` steps. -/
def gone (count : Nat) (thread : BusThread α) : List Subscription :=
  seen plans (leaving plans) count thread

/-- The numbers for which `unsubscribe` tells in the next `count` steps that the subscription was
there. -/
def withdrawn (count : Nat) (thread : BusThread α) : List SubscriptionId :=
  seen plans (fun thread => thread.withdrawing?.toList) count thread

/-- In the first `count` steps a publication came to a channel whose receiver had been dropped. -/
def FoundClosed (first : BusThread α) (count : Nat) (handover : Handover) : Prop :=
  ∃ turn < count, (play plans turn first).handover? = some handover ∧
    (play plans turn first).bus.isOpen handover.target.id = false ∧
    ∃ drop < turn, (play plans drop first).Drops handover.target.id

theorem play_succ (count : Nat) (thread : BusThread α) :
    play plans (count + 1) thread = (play plans count thread).step plans := by
  induction count generalizing thread with
  | zero => rfl
  | succ count ih => exact ih (thread.step plans)

theorem seen_succ (see : BusThread α → List β) (count : Nat) (thread : BusThread α) :
    seen plans see (count + 1) thread =
      seen plans see count thread ++ see (play plans count thread) := by
  induction count generalizing thread with
  | zero => exact List.append_nil _
  | succ count ih =>
      rw [seen, ih (thread.step plans), ← List.append_assoc]
      rfl

/-! ## What a step does to the list -/

/-- What becomes of the list of subscriptions in a step. -/
inductive Listed (thread next : BusThread α) : Prop
  | kept (making : thread.making? = none) (number : next.bus.nextNumber = thread.bus.nextNumber)
    (list : next.bus.subscriptions = thread.bus.subscriptions)
  | added (subscription : Subscription) (making : thread.making? = some subscription)
    (own : subscription.id = ⟨thread.bus.nextNumber⟩)
    (number : next.bus.nextNumber = thread.bus.nextNumber + 1)
    (list : next.bus.subscriptions = thread.bus.subscriptions ++ [subscription])
  | unsubscribed (id : SubscriptionId) (plan : EventBus.Result → Plan α) (below : List (Frame α))
    (top : thread.frames = .listener (.use (.unsubscribe id) plan) :: below)
    (number : next.bus.nextNumber = thread.bus.nextNumber)
    (list : next.bus.subscriptions = thread.bus.subscriptions.filter fun s => !(s.id == id))
  | pruned (number : Nat) (event : Event) (closed : List SubscriptionId) (below : List (Frame α))
    (top : thread.frames = .publication number ⟨event, [], closed⟩ :: below)
    (number : next.bus.nextNumber = thread.bus.nextNumber)
    (list : next.bus.subscriptions =
      thread.bus.subscriptions.filter fun s => !closed.contains s.id)

theorem step_listed (thread : BusThread α) : thread.Listed (thread.step plans) := by
  cases top : thread.frames with
  | nil =>
      have still : thread.step plans = thread := by simp only [step, top]
      rw [still]
      exact .kept (by simp only [making?, top]) rfl rfl
  | cons frame below =>
      cases frame with
      | listener plan =>
          rw [step_of_listener plans top]
          cases plan with
          | done | read | write | publish => exact .kept (by simp only [making?, top]) rfl rfl
          | use operation next =>
              cases operation with
              | subscribe kinds | openChannel kinds =>
                  exact .added _ (by simp only [making?, top]; rfl) rfl rfl rfl
              | unsubscribe id => exact .unsubscribed id next below top rfl rfl
              | receive | dropReceiver | count =>
                  exact .kept (by simp only [making?, top]) rfl rfl
      | publication number broadcast =>
          obtain ⟨event, turns, closed⟩ := broadcast
          cases turns with
          | nil =>
              rw [step_of_spent top]
              exact .pruned number event closed below top rfl rfl
          | cons target rest =>
              have same : (EventBus.hand (fun _ _ bus => bus) event (thread.bus, closed)
                  target).1.nextNumber = thread.bus.nextNumber ∧
                  (EventBus.hand (fun _ _ bus => bus) event (thread.bus, closed)
                  target).1.subscriptions = thread.bus.subscriptions := by
                unfold EventBus.hand
                dsimp only
                split
                · exact ⟨rfl, rfl⟩
                · split <;> exact ⟨rfl, rfl⟩
              rw [step_of_turn top]
              exact .kept (by simp only [making?, top]) same.1 same.2

theorem leaving_of_filter {thread : BusThread α} {stays : Subscription → Bool}
    (list : (thread.step plans).bus.subscriptions = thread.bus.subscriptions.filter stays) :
    thread.leaving plans = thread.bus.subscriptions.filter fun s => !stays s := by
  refine List.filter_congr fun subscription member => ?_
  simp [list, member]

/-- The subscriptions on the list and those that went are all that were made, and their numbers are those
that were given out. -/
structure Accounts (made gone : List Subscription) (thread : BusThread α) : Prop where
  numbers : made.map (·.id) = (List.range made.length).map fun number => ⟨.ofNat number⟩
  next : thread.bus.nextNumber = .ofNat made.length
  ordered : thread.bus.subscriptions.Sublist made
  all : (thread.bus.subscriptions ++ gone).Perm made

namespace Accounts

variable {made gone : List Subscription} {thread next : BusThread α}

theorem start (kept : α) (plan : Plan α) :
    (start .empty kept plan).Accounts [] [] :=
  ⟨rfl, rfl, .refl _, .refl _⟩

theorem add (accounts : thread.Accounts made gone) {subscription : Subscription}
    (own : subscription.id = ⟨thread.bus.nextNumber⟩)
    (number : next.bus.nextNumber = thread.bus.nextNumber + 1)
    (list : next.bus.subscriptions = thread.bus.subscriptions ++ [subscription]) :
    next.Accounts (made ++ [subscription]) gone where
  numbers := by
    rw [List.map_append, accounts.numbers, List.length_append, List.length_singleton,
      List.range_succ, List.map_append, List.map_singleton, own, accounts.next]
    rfl
  next := by
    rw [number, accounts.next, List.length_append, UInt64.ofNat_add]
    rfl
  ordered := by
    rw [list]
    exact accounts.ordered.append (.refl _)
  all := by
    have moved : (thread.bus.subscriptions ++ [subscription] ++ gone).Perm
        (thread.bus.subscriptions ++ gone ++ [subscription]) := by
      rw [List.append_assoc, List.append_assoc]
      exact List.perm_append_comm.append_left _
    rw [list]
    exact moved.trans (accounts.all.append_right _)

theorem filter (accounts : thread.Accounts made gone) {stays : Subscription → Bool}
    (number : next.bus.nextNumber = thread.bus.nextNumber)
    (list : next.bus.subscriptions = thread.bus.subscriptions.filter stays) :
    next.Accounts made (gone ++ thread.bus.subscriptions.filter fun s => !stays s) where
  numbers := accounts.numbers
  next := number.trans accounts.next
  ordered := by
    rw [list]
    exact List.filter_sublist.trans accounts.ordered
  all := by
    have parted : (thread.bus.subscriptions.filter stays ++
        thread.bus.subscriptions.filter fun s => !stays s).Perm thread.bus.subscriptions :=
      List.filter_append_perm _ _
    rw [list]
    refine (List.perm_append_comm.append_left _).trans ?_
    rw [← List.append_assoc]
    exact (parted.append_right _).trans accounts.all

theorem step (accounts : thread.Accounts made gone) :
    (thread.step plans).Accounts (made ++ thread.making?.toList) (gone ++ thread.leaving plans) := by
  cases step_listed plans thread with
  | added subscription making own number list =>
      have none : thread.leaving plans = [] := by simp +contextual [leaving, list]
      rw [making, none, List.append_nil]
      exact accounts.add own number list
  | kept making number list =>
      have none : thread.leaving plans = [] := by simp [leaving, list]
      rw [making, none, List.append_nil, Option.toList_none, List.append_nil]
      exact ⟨accounts.numbers, number.trans accounts.next, list ▸ accounts.ordered,
        list ▸ accounts.all⟩
  | unsubscribed id plan below top number list =>
      have making : thread.making? = none := by simp only [making?, top]
      have left := leaving_of_filter plans list
      rw [making, left, Option.toList_none, List.append_nil]
      exact accounts.filter number list
  | pruned _ event closed below top number list =>
      have making : thread.making? = none := by simp only [making?, top]
      rw [making, leaving_of_filter plans list, Option.toList_none, List.append_nil]
      exact accounts.filter number list

/-! ### Numbers -/

theorem ofNat_lt_ofNat {number other : Nat} (below : number < other) (few : other < 2 ^ 64) :
    UInt64.ofNat number < UInt64.ofNat other := by
  have size : UInt64.size = 2 ^ 64 := rfl
  exact (UInt64.ofNat_lt_iff_lt (by omega) (by omega)).2 below

theorem increasing (accounts : thread.Accounts made gone) (few : made.length < 2 ^ 64) :
    made.Pairwise fun earlier later => earlier.id.number < later.id.number := by
  have ids : (made.map (·.id)).Pairwise fun earlier later => earlier.number < later.number := by
    rw [accounts.numbers, List.pairwise_map]
    refine List.pairwise_lt_range.imp_of_mem fun {earlier later} _ inside below => ?_
    exact ofNat_lt_ofNat below (Nat.lt_trans (List.mem_range.1 inside) few)
  rwa [List.pairwise_map] at ids

theorem nodup_ids (accounts : thread.Accounts made gone) (few : made.length < 2 ^ 64) :
    (made.map (·.id)).Nodup :=
  List.pairwise_map.2 ((accounts.increasing few).imp fun below same => by
    rw [same] at below
    exact UInt64.lt_irrefl _ below)

theorem lt_next (accounts : thread.Accounts made gone) (few : made.length < 2 ^ 64)
    {subscription : Subscription} (member : subscription ∈ made) :
    subscription.id.number < thread.bus.nextNumber := by
  have among := List.mem_map_of_mem (f := (·.id)) member
  rw [accounts.numbers] at among
  obtain ⟨number, inside, own⟩ := List.mem_map.1 among
  rw [← own, accounts.next]
  exact ofNat_lt_ofNat (List.mem_range.1 inside) few

/-- A subscription is on the list until it goes. -/
theorem mem_ids_iff (accounts : thread.Accounts made gone) (few : made.length < 2 ^ 64)
    (id : SubscriptionId) :
    id ∈ thread.bus.subscriptions.map (·.id) ↔ id ∈ made.map (·.id) ∧ id ∉ gone.map (·.id) := by
  have all : (thread.bus.subscriptions.map (·.id) ++ gone.map (·.id)).Perm (made.map (·.id)) := by
    rw [← List.map_append]
    exact accounts.all.map _
  have nodup := all.nodup_iff.2 (accounts.nodup_ids few)
  rw [← all.mem_iff, List.mem_append]
  constructor
  · exact fun there => ⟨.inl there, (List.disjoint_of_nodup_append nodup) there⟩
  · exact fun ⟨made, stays⟩ => made.resolve_right stays

end Accounts

/-! ## Channels found closed -/

/-- A step leaves a channel open or shut as it was, unless it drops the receiver or makes the channel. -/
theorem isOpen_step_cases (thread : BusThread α) (id : SubscriptionId) :
    (thread.step plans).bus.isOpen id = thread.bus.isOpen id ∨
      (thread.Drops id ∧ (thread.step plans).bus.isOpen id = false) ∨
      ((thread.step plans).bus.isOpen id = true ∧
        ∃ channel, thread.making? = some channel ∧ channel.id = id) := by
  cases top : thread.frames with
  | nil => exact .inl (by simp only [step, top])
  | cons frame below =>
      cases frame with
      | listener plan =>
          rw [step_of_listener plans top]
          cases plan with
          | done | read | write | publish => exact .inl rfl
          | use operation next =>
              cases operation with
              | subscribe | unsubscribe | count => exact .inl rfl
              | receive taken => exact .inl (EventBus.isOpen_receive ..)
              | openChannel kinds =>
                  by_cases same : (thread.bus.openChannel kinds).1 = id
                  · refine .inr (.inr ⟨?_, _, by simp only [making?, top]; rfl, same⟩)
                    simp [follow, EventBus.perform, EventBus.isOpen, EventBus.openChannel, ← same]
                  · refine .inl ?_
                    have other : ¬ (⟨thread.bus.nextNumber⟩ : SubscriptionId) = id := same
                    simp [follow, EventBus.perform, EventBus.openChannel, EventBus.add,
                      EventBus.isOpen, List.any_append, other]
              | dropReceiver dropped =>
                  by_cases same : id = dropped
                  · refine .inr (.inl ⟨⟨next, below, same ▸ top⟩, ?_⟩)
                    simp [follow, EventBus.perform, EventBus.dropReceiver, EventBus.isOpen, same]
                  · exact .inl (EventBus.isOpen_dropReceiver same)
      | publication number broadcast =>
          obtain ⟨event, turns, closed⟩ := broadcast
          refine .inl ?_
          cases turns with
          | nil => rw [step_of_spent top]; rfl
          | cons target rest =>
              rw [step_of_turn top]
              unfold EventBus.hand
              dsimp only
              split
              · rfl
              · split
                · exact EventBus.isOpen_post ..
                · rfl

/-- A channel stays open until its receiver is dropped. -/
theorem isOpen_step {thread : BusThread α} {id : SubscriptionId} (opened : thread.bus.isOpen id = true) :
    (thread.step plans).bus.isOpen id = true ∨ thread.Drops id := by
  rcases isOpen_step_cases plans thread id with same | ⟨drops, -⟩ | ⟨again, -⟩
  · exact .inl (same.trans opened)
  · exact .inr drops
  · exact .inl again

/-- A channel stays shut unless it is made again. -/
theorem isOpen_step_of_shut {thread : BusThread α} {id : SubscriptionId}
    (shut : thread.bus.isOpen id = false)
    (other : ∀ channel, thread.making? = some channel → channel.id ≠ id) :
    (thread.step plans).bus.isOpen id = false := by
  rcases isOpen_step_cases plans thread id with same | ⟨-, still⟩ | ⟨-, channel, making, same⟩
  · exact same.trans shut
  · exact still
  · exact absurd same (other channel making)

/-- A channel is made with its receiver. -/
theorem isOpen_of_making {thread : BusThread α} {subscription : Subscription}
    (making : thread.making? = some subscription) (route : subscription.route = .channel) :
    (thread.step plans).bus.isOpen subscription.id = true := by
  unfold making? at making
  split at making
  · cases making
    cases route
  · next kinds next below top =>
    cases making
    rw [step_of_listener plans top]
    simp [follow, EventBus.perform, EventBus.openChannel, EventBus.isOpen]
  · cases making

variable {plans} in
theorem FoundClosed.succ {first : BusThread α} {count : Nat} {handover : Handover}
    (found : FoundClosed plans first count handover) :
    FoundClosed plans first (count + 1) handover := by
  obtain ⟨turn, before, rest⟩ := found
  exact ⟨turn, Nat.lt_succ_of_lt before, rest⟩

/-- A publication under way is to come to subscriptions that were made, and those that it found closed
are channels that it came to when their receivers had been dropped. -/
structure Traces (first : BusThread α) (count number : Nat) (broadcast : Broadcast) : Prop where
  wanted : ∀ target ∈ broadcast.rest,
    target ∈ made plans count first ∧ target.kinds.has broadcast.event.kind = true
  found : ∀ id ∈ broadcast.closed, ∃ target ∈ made plans count first, target.id = id ∧
    target.route = .channel ∧ target.kinds.has broadcast.event.kind = true ∧
    FoundClosed plans first count ⟨number, broadcast.event, target⟩

/-- What has become of channels in the first `count` steps. -/
structure Traced (first : BusThread α) (count : Nat) : Prop where
  opened : ∀ channel ∈ made plans count first, channel.route = .channel →
    (play plans count first).bus.isOpen channel.id = true ∨
      ∃ drop < count, (play plans drop first).Drops channel.id
  publications : ∀ number broadcast, .publication number broadcast ∈ (play plans count first).frames →
    Traces plans first count number broadcast

section Trace

variable {plans} {first : BusThread α} {count : Nat}

theorem made_succ : made plans (count + 1) first =
    made plans count first ++ (play plans count first).making?.toList :=
  seen_succ plans _ count first

theorem gone_succ : gone plans (count + 1) first =
    gone plans count first ++ (play plans count first).leaving plans :=
  seen_succ plans _ count first

theorem made_subset_succ : made plans count first ⊆ made plans (count + 1) first := by
  rw [made_succ]
  exact List.subset_append_left _ _

theorem Traces.succ {number : Nat} {broadcast : Broadcast}
    (traces : Traces plans first count number broadcast) :
    Traces plans first (count + 1) number broadcast where
  wanted := fun target member =>
    ⟨made_subset_succ (traces.wanted target member).1, (traces.wanted target member).2⟩
  found := fun id member => by
    obtain ⟨target, made, same, route, kind, closed⟩ := traces.found id member
    exact ⟨target, made_subset_succ made, same, route, kind, closed.succ⟩

/-- A publication that comes to a channel without a receiver finds it closed. -/
theorem Traces.turn {number : Nat} {event : Event} {target : Subscription}
    {rest : List Subscription} {closed : List SubscriptionId} {below : List (Frame α)}
    (traces : Traces plans first count number ⟨event, target :: rest, closed⟩)
    (opened : target.route = .channel → (play plans count first).bus.isOpen target.id = true ∨
      ∃ drop < count, (play plans drop first).Drops target.id)
    (top : (play plans count first).frames =
      .publication number ⟨event, target :: rest, closed⟩ :: below) :
    Traces plans first (count + 1) number ⟨event, rest, (EventBus.hand (fun _ _ bus => bus) event
      ((play plans count first).bus, closed) target).2⟩ := by
  have further := traces.succ
  refine ⟨fun other member => further.wanted other (.tail _ member), ?_⟩
  unfold EventBus.hand
  dsimp only
  split
  · exact further.found
  · next route =>
    split
    · exact further.found
    · next shut =>
      intro id member
      rcases List.mem_append.1 member with before | last
      · exact further.found id before
      · obtain ⟨made, kind⟩ := further.wanted target (.head _)
        refine ⟨target, made, (List.mem_singleton.1 last).symm, route, kind, count,
          Nat.lt_succ_self _, ?_, Bool.eq_false_iff.2 shut, (opened route).resolve_left shut⟩
        simp only [handover?, top, List.head?_cons, Option.map_some]

/-- The receiver of a channel that is there is open until it is dropped. -/
theorem Traced.opened_succ (traced : Traced plans first count) {channel : Subscription}
    (member : channel ∈ made plans (count + 1) first) (route : channel.route = .channel) :
    (play plans (count + 1) first).bus.isOpen channel.id = true ∨
      ∃ drop < count + 1, (play plans drop first).Drops channel.id := by
  rw [play_succ]
  rw [made_succ, List.mem_append, Option.mem_toList] at member
  rcases member with before | making
  · rcases traced.opened channel before route with opened | ⟨drop, earlier, drops⟩
    · rcases isOpen_step plans opened with still | drops
      · exact .inl still
      · exact .inr ⟨count, Nat.lt_succ_self _, drops⟩
    · exact .inr ⟨drop, Nat.lt_succ_of_lt earlier, drops⟩
  · exact .inl (isOpen_of_making plans making route)

theorem mem_of_mem_listener {plan : Plan α} {number : Nat} {broadcast : Broadcast}
    {frames : List (Frame α)} (member : .publication number broadcast ∈ .listener plan :: frames) :
    .publication number broadcast ∈ frames := by
  simpa using member

/-- A publication under way has come from one that was, or has just been begun. -/
theorem Traced.publications_succ {gone : List Subscription} (traced : Traced plans first count)
    (accounts : (play plans count first).Accounts (made plans count first) gone) {number : Nat}
    {broadcast : Broadcast}
    (member : .publication number broadcast ∈ ((play plans count first).step plans).frames) :
    Traces plans first (count + 1) number broadcast := by
  cases top : (play plans count first).frames with
  | nil =>
      simp only [BusThread.step, top] at member
      cases member
  | cons frame below =>
      have earlier : ∀ number broadcast, .publication number broadcast ∈ below →
          Traces plans first (count + 1) number broadcast :=
        fun _ _ inside => (traced.publications _ _ (top ▸ List.mem_cons_of_mem _ inside)).succ
      cases frame with
      | listener plan =>
          rw [step_of_listener plans top] at member
          cases plan with
          | done => exact earlier _ _ member
          | read | write | use => exact earlier _ _ (mem_of_mem_listener member)
          | publish event next =>
              rcases List.mem_cons.1 member with this | member
              · cases this
                refine ⟨fun target wanted => ?_, fun _ found => absurd found List.not_mem_nil⟩
                obtain ⟨listed, kind⟩ := List.mem_filter.1 wanted
                exact ⟨made_subset_succ (accounts.ordered.subset listed), kind⟩
              · exact earlier _ _ (mem_of_mem_listener member)
      | publication outer broadcast' =>
          have traces := traced.publications outer broadcast' (top ▸ List.mem_cons_self)
          obtain ⟨event, turns, closed⟩ := broadcast'
          cases turns with
          | nil =>
              rw [step_of_spent top] at member
              exact earlier _ _ member
          | cons target rest =>
              rw [step_of_turn top] at member
              rcases List.mem_append.1 member with calls | member
              · unfold called at calls
                split at calls <;> simp at calls
              · rcases List.mem_cons.1 member with this | inside
                · cases this
                  exact traces.turn
                    (traced.opened target (traces.wanted target (.head _)).1) top
                · exact earlier _ _ inside

/-- Each step keeps track of channels. -/
theorem Traced.step {gone : List Subscription} (traced : Traced plans first count)
    (accounts : (play plans count first).Accounts (made plans count first) gone) :
    Traced plans first (count + 1) where
  opened := fun _ member route => traced.opened_succ member route
  publications := fun _ _ member => traced.publications_succ accounts (play_succ .. ▸ member)

end Trace

/-- What is unsubscribed with success is on the list, and goes. -/
theorem leaves_of_withdrawing {thread : BusThread α} {id : SubscriptionId}
    (withdraws : thread.withdrawing? = some id) :
    id ∈ thread.bus.subscriptions.map (·.id) ∧ id ∈ (thread.leaving plans).map (·.id) := by
  unfold withdrawing? at withdraws
  split at withdraws
  · next other next below top =>
    split at withdraws
    · next there =>
      cases withdraws
      have list : (thread.step plans).bus.subscriptions =
          thread.bus.subscriptions.filter fun s => !(s.id == id) := by
        rw [step_of_listener plans top]
        rfl
      rw [leaving_of_filter plans list]
      simpa [EventBus.unsubscribe] using there
    · cases withdraws
  · cases withdraws

variable (kept : α) (plan : Plan α)

/-- The accounts of a bus that began empty. -/
theorem play_accounts (count : Nat) :
    let first := start .empty kept plan
    (play plans count first).Accounts (made plans count first) (gone plans count first) ∧
      Traced plans first count := by
  intro first
  induction count with
  | zero =>
      refine ⟨.start kept plan, nofun, fun number broadcast member => ?_⟩
      cases List.mem_singleton.1 member
  | succ count ih =>
      obtain ⟨accounts, traced⟩ := ih
      refine ⟨?_, traced.step accounts⟩
      rw [play_succ, made_succ, gone_succ]
      exact accounts.step plans

/-- What is unsubscribed goes, so that this happens once to each subscription. -/
theorem nodup_withdrawn {count : Nat}
    (few : (made plans count (start .empty kept plan)).length < 2 ^ 64) :
    (withdrawn plans count (start .empty kept plan)).Nodup ∧
      withdrawn plans count (start .empty kept plan) ⊆
        (gone plans count (start .empty kept plan)).map (·.id) := by
  induction count with
  | zero => exact ⟨.nil, nofun⟩
  | succ count ih =>
      rw [made_succ, List.length_append] at few
      obtain ⟨nodup, subset⟩ := ih (by omega)
      have grown : withdrawn plans (count + 1) (start .empty kept plan) =
          withdrawn plans count (start .empty kept plan) ++
            (play plans count (start .empty kept plan)).withdrawing?.toList :=
        seen_succ plans _ count _
      rw [grown, gone_succ, List.map_append]
      have earlier := List.subset_append_of_subset_left
        (((play plans count (start .empty kept plan)).leaving plans).map (·.id)) subset
      cases withdraws : (play plans count (start .empty kept plan)).withdrawing? with
      | none => exact ⟨by simpa using nodup, by simpa using earlier⟩
      | some id =>
          obtain ⟨there, leaves⟩ := leaves_of_withdrawing plans withdraws
          have stayed := (((play_accounts plans kept plan count).1.mem_ids_iff (by omega) id).1
            there).2
          refine ⟨nodup.append (List.nodup_singleton _)
            (List.disjoint_singleton.2 fun before => stayed (subset before)),
            List.append_subset.2 ⟨earlier, fun other member => ?_⟩⟩
          rw [List.mem_singleton.1 member]
          exact List.mem_append_right _ leaves

/-- The list of subscriptions of a bus that one thread uses, and with it the listeners that it calls, to
any depth. Subscriptions are listed in the order of their numbers, all of them below the next one, and no
number is given out twice. `unsubscribe` tells that a subscription was there when it was made and has not
gone before, once at most for each. A subscription goes only when it is unsubscribed or, as a channel, at
the end of a publication of a kind that it wants, which came to it when its receiver had been dropped.
Those on the list and those gone are as many as were made. -/
theorem subscriptions_accounted (plans : Plans α) (kept : α) (plan : Plan α) (count : Nat)
    (few : (made plans count (start .empty kept plan)).length < 2 ^ 64) :
    let first := start .empty kept plan
    let last := play plans count first
    let issued := (made plans count first).map (·.id)
    let removed := (gone plans count first).map (·.id)
    (last.bus.subscriptions.Pairwise fun earlier later => earlier.id.number < later.id.number) ∧
      (∀ subscription ∈ last.bus.subscriptions,
        subscription.id.number < last.bus.nextNumber) ∧
      issued.Nodup ∧
      (∀ id next below, last.frames = .listener (.use (.unsubscribe id) next) :: below →
        ∃ there, (last.step plans).frames = .listener (next (.flag there)) :: below ∧
          (there = true ↔ id ∈ issued ∧ id ∉ removed)) ∧
      (withdrawn plans count first).Nodup ∧
      (∀ subscription ∈ last.leaving plans,
        (∃ next below,
          last.frames = .listener (.use (.unsubscribe subscription.id) next) :: below) ∨
        subscription.route = .channel ∧ ∃ number event closed below,
          last.frames = .publication number ⟨event, [], closed⟩ :: below ∧
            subscription.kinds.has event.kind = true ∧
            FoundClosed plans first count ⟨number, event, subscription⟩) ∧
      last.bus.count + removed.length = issued.length := by
  intro first last issued removed
  obtain ⟨accounts, traced⟩ := play_accounts plans kept plan count
  refine ⟨(accounts.increasing few).sublist accounts.ordered, fun subscription member =>
    accounts.lt_next few (accounts.ordered.subset member), accounts.nodup_ids few, ?_,
    (nodup_withdrawn plans kept plan few).1, ?_, ?_⟩
  · intro id next below top
    refine ⟨(last.bus.unsubscribe id).1, by rw [step_of_listener plans top]; rfl, ?_⟩
    rw [← accounts.mem_ids_iff few id]
    simp [EventBus.unsubscribe, last, first]
  · intro subscription leaves
    obtain ⟨member, absent⟩ := List.mem_filter.1 leaves
    cases step_listed plans last with
    | kept _ _ list | added _ _ _ _ list => simp_all
    | unsubscribed id next below top _ list =>
        rw [list] at absent
        obtain rfl : subscription.id = id := by simpa [member] using absent
        exact .inl ⟨next, below, top⟩
    | pruned number event closed below top _ list =>
        rw [list] at absent
        have shut : subscription.id ∈ closed := by simpa [member] using absent
        obtain ⟨target, targetMade, same, route, kind, found⟩ :=
          (traced.publications number _ (top ▸ List.mem_cons_self)).found _ shut
        -- Numbers are given out once, so that the channel found closed is the one that goes.
        obtain rfl : target = subscription := List.inj_on_of_nodup_map (accounts.nodup_ids few)
          targetMade (accounts.ordered.subset member) same
        exact .inr ⟨route, number, event, closed, below, top, kind, found⟩
  · have all := accounts.all.length_eq
    rw [List.length_append] at all
    simpa [issued, removed, EventBus.count] using all

/-- A channel is opened and abandoned before something is published, and the listener that is called in
the course of that opens another and unsubscribes itself. -/
def abandoning : Plan Unit :=
  .use (.openChannel .all) fun _ => .use (.subscribe .all) fun _ => .use (.dropReceiver ⟨0⟩) fun _ =>
    .publish (.sceneRendered 0) .done

def replacing : Plans Unit := fun id _ =>
  .use (.openChannel .all) fun _ => .use (.unsubscribe id) fun _ => .done

/-- The abandoned channel goes for want of a receiver, and the one opened meanwhile stays. -/
theorem abandoned_channel_goes :
    let first := start .empty () abandoning
    let last := play replacing 9 first
    (made replacing 9 first).length < 2 ^ 64 ∧
      last.leaving replacing = [⟨⟨0⟩, .all, .channel⟩] ∧
      (last.step replacing).bus.subscriptions = [⟨⟨2⟩, .all, .channel⟩] ∧
      ∃ number event, FoundClosed replacing first 9 ⟨number, event, ⟨⟨0⟩, .all, .channel⟩⟩ := by
  intro first last
  have few : (made replacing 9 first).length < 2 ^ 64 := by decide +kernel
  have leaves : last.leaving replacing = [⟨⟨0⟩, .all, .channel⟩] := by decide +kernel
  obtain ⟨-, -, -, -, -, reasons, -⟩ := subscriptions_accounted replacing () abandoning 9 few
  refine ⟨few, leaves, by decide +kernel, ?_⟩
  rcases reasons ⟨⟨0⟩, .all, .channel⟩ (leaves ▸ .head _) with
    ⟨next, below, top⟩ | ⟨-, number, event, -, -, -, -, found⟩
  · have listed : (last.bus.unsubscribe ⟨0⟩).1 = true := by decide +kernel
    have withdraws : last.withdrawing? = some ⟨0⟩ := by
      rw [withdrawing?, show last.frames = _ from top]
      exact if_pos listed
    have quiet : last.withdrawing? = none := by decide +kernel
    cases withdraws.symm.trans quiet
  · exact ⟨number, event, found⟩

end BusThread

end RenderFarm
