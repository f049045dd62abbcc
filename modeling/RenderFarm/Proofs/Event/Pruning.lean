import RenderFarm.Proofs.Event.Registry

/-!
# Abandoned channels

A channel whose receiver was dropped stays on the list until a publication comes to it. A publication
comes to those only that want the event, so what it takes off the list depends on its kind. Of the channels
that had been abandoned when it began, it leaves those that do not want the event where they are, and no
others (`abandoned_left_by_kind`).
-/

namespace RenderFarm

namespace BusThread

variable {α : Type} {plans : Plans α}

/-- A channel was made in the first `count` steps, and its receiver has been dropped since. -/
structure Abandoned (plans : Plans α) (first : BusThread α) (count : Nat) (channel : Subscription) :
    Prop where
  made : channel ∈ made plans count first
  route : channel.route = .channel
  shut : (play plans count first).bus.isOpen channel.id = false

/-- A step of a thread leaves the frames below the top where they are. -/
theorem mem_step_frames {thread : BusThread α} {frame other : Frame α} {below : List (Frame α)}
    (top : thread.frames = frame :: below) (member : other ∈ below) :
    other ∈ (thread.step plans).frames := by
  cases frame with
  | listener plan =>
      rw [step_of_listener plans top]
      cases plan with
      | done => exact member
      | read | write | use => exact .tail _ member
      | publish => exact .tail _ (.tail _ member)
  | publication number broadcast =>
      rw [step_of_publication plans top]
      exact List.mem_append_right _ member

/-- A channel without a receiver stays so. -/
theorem Abandoned.succ {kept : α} {plan : Plan α} {count : Nat} {channel : Subscription}
    (abandoned : Abandoned plans (start .empty kept plan) count channel)
    (few : (BusThread.made plans (count + 1) (start .empty kept plan)).length < 2 ^ 64) :
    Abandoned plans (start .empty kept plan) (count + 1) channel where
  made := made_subset_succ abandoned.made
  route := abandoned.route
  shut := by
    rw [play_succ]
    refine isOpen_step_of_shut plans abandoned.shut fun other making same => ?_
    have issued := (play_accounts plans kept plan (count + 1)).1.nodup_ids few
    rw [made_succ, making, List.map_append] at issued
    exact (List.disjoint_of_nodup_append issued) (List.mem_map_of_mem abandoned.made)
      (same ▸ List.mem_map_of_mem (List.mem_singleton_self other))

/-! ## What a publication owes -/

/-- A publication under way is to come to a channel, or has found it closed. -/
def Owes (number : Nat) (channel : Subscription) (thread : BusThread α) : Prop :=
  ∃ broadcast, .publication number broadcast ∈ thread.frames ∧
    (channel ∈ broadcast.rest ∨ channel.id ∈ broadcast.closed)

section Owing

variable {number : Nat} {channel : Subscription} {thread : BusThread α}

/-- A call of `publish` owes a turn to all on the list that want the event. -/
theorem owes_of_call {event : Event} {next : Plan α} {below : List (Frame α)}
    (calls : thread.frames = .listener (.publish event next) :: below)
    (listed : channel ∈ thread.bus.subscriptions)
    (wants : channel.kinds.has event.kind = true) :
    (thread.step plans).Owes thread.begun channel := by
  rw [step_of_listener plans calls]
  exact ⟨.start thread.bus event, .head _, .inl (List.mem_filter.2 ⟨listed, wants⟩)⟩

variable (plans) in
/-- A publication takes what it owes to a channel without a receiver off the list in its last step. -/
theorem Owes.step (owes : thread.Owes number channel) (route : channel.route = .channel)
    (shut : thread.bus.isOpen channel.id = false) :
    (thread.step plans).Owes number channel ∨
      channel.id ∉ (thread.step plans).bus.subscriptions.map (·.id) := by
  obtain ⟨broadcast, member, owed⟩ := owes
  cases top : thread.frames with
  | nil => exact absurd (top ▸ member) List.not_mem_nil
  | cons frame below =>
      rcases List.mem_cons.1 (top ▸ member) with rfl | inside
      · obtain ⟨event, turns, closed⟩ := broadcast
        cases turns with
        | nil =>
            have found : channel.id ∈ closed := owed.resolve_left List.not_mem_nil
            rw [step_of_spent top]
            refine .inr ?_
            simp only [EventBus.prune, EventBus.Holder.setBus, EventBus.remove, List.mem_map,
              List.mem_filter, not_exists, not_and]
            rintro other ⟨-, stays⟩ same
            simp [same, found] at stays
        | cons target rest =>
            rw [step_of_turn top]
            refine .inl ⟨_, List.mem_append_right _ (.head _), ?_⟩
            rcases owed with owed | found
            · rcases List.mem_cons.1 owed with rfl | later
              · refine .inr ?_
                simp [EventBus.hand, route, EventBus.Holder.bus, shut]
              · exact .inl later
            · refine .inr ?_
              unfold EventBus.hand
              dsimp only
              split
              · exact found
              · split
                · exact found
                · exact List.mem_append_left _ found
      · exact .inl ⟨broadcast, mem_step_frames top inside, owed⟩

end Owing

/-- From the call of a publication on, a channel that had been abandoned and wants the event is owed its
turn or has gone. -/
theorem owes_or_gone {kept : α} {plan : Plan α} {earlier : Nat} {event : Event} {next : Plan α}
    {below : List (Frame α)} {channel : Subscription}
    (calls : (play plans earlier (start .empty kept plan)).frames =
      .listener (.publish event next) :: below)
    (abandoned : Abandoned plans (start .empty kept plan) earlier channel)
    (wants : channel.kinds.has event.kind = true) (count : Nat)
    (few : (made plans (earlier + 1 + count) (start .empty kept plan)).length < 2 ^ 64) :
    let first := start .empty kept plan
    Abandoned plans first (earlier + 1 + count) channel ∧
      ((play plans (earlier + 1 + count) first).Owes (play plans earlier first).begun channel ∨
        channel.id ∈ (gone plans (earlier + 1 + count) first).map (·.id)) := by
  intro first
  have fewer {count : Nat} (few : (made plans (count + 1) first).length < 2 ^ 64) :
      (made plans count first).length < 2 ^ 64 := by
    rw [made_succ, List.length_append] at few
    omega
  have went {count : Nat} (before : channel.id ∈ (gone plans count first).map (·.id)) :
      channel.id ∈ (gone plans (count + 1) first).map (·.id) := by
    rw [gone_succ, List.map_append]
    exact List.mem_append_left _ before
  induction count with
  | zero =>
      refine ⟨abandoned.succ few, ?_⟩
      have accounts := (play_accounts plans kept plan earlier).1
      by_cases gone : channel.id ∈ (gone plans earlier first).map (·.id)
      · exact .inr (went gone)
      · have there := (accounts.mem_ids_iff (fewer few) channel.id).2
          ⟨List.mem_map_of_mem abandoned.made, gone⟩
        obtain ⟨listed, member, same⟩ := List.mem_map.1 there
        -- Numbers are given out once, so that the one on the list is this channel.
        obtain rfl : listed = channel := List.inj_on_of_nodup_map (accounts.nodup_ids (fewer few))
          (accounts.ordered.subset member) abandoned.made same
        rw [Nat.add_zero, play_succ]
        exact .inl (owes_of_call calls member wants)
  | succ count ih =>
      obtain ⟨before, owes | gone⟩ := ih (fewer few)
      · have after := before.succ few
        refine ⟨after, ?_⟩
        rcases owes.step plans before.route before.shut with owes | absent
        · exact .inl ((play_succ plans (earlier + 1 + count) first).symm ▸ owes)
        · have accounts := (play_accounts plans kept plan (earlier + 1 + (count + 1))).1
          refine .inr (by_contra fun stays => ?_)
          rw [← play_succ] at absent
          exact absent ((accounts.mem_ids_iff few channel.id).2
            ⟨List.mem_map_of_mem after.made, stays⟩)
      · exact ⟨before.succ few, .inr (went gone)⟩

/-! ## What stays and what goes -/

/-- The next step takes a subscription off the list: it is unsubscribed, or a publication of a kind that it
wants ends. -/
def TakesOff (thread : BusThread α) (subscription : Subscription) : Prop :=
  (∃ next below, thread.frames = .listener (.use (.unsubscribe subscription.id) next) :: below) ∨
    ∃ number event closed below, thread.frames = .publication number ⟨event, [], closed⟩ :: below ∧
      subscription.kinds.has event.kind = true

/-- A subscription stays on the list until it is taken off. -/
theorem listed_or_takesOff {kept : α} {plan : Plan α} {count : Nat} {subscription : Subscription}
    (few : (made plans count (start .empty kept plan)).length < 2 ^ 64)
    (listed : subscription ∈ (play plans count (start .empty kept plan)).bus.subscriptions) :
    subscription ∈ (play plans (count + 1) (start .empty kept plan)).bus.subscriptions ∨
      (play plans count (start .empty kept plan)).TakesOff subscription := by
  obtain ⟨accounts, traced⟩ := play_accounts plans kept plan count
  rw [play_succ]
  cases step_listed plans (play plans count (start .empty kept plan)) with
  | kept _ _ list => exact .inl (list ▸ listed)
  | added _ _ _ _ list => exact .inl (list ▸ List.mem_append_left _ listed)
  | unsubscribed id next below top _ list =>
      by_cases same : subscription.id = id
      · exact .inr (.inl ⟨next, below, same ▸ top⟩)
      · exact .inl (list ▸ List.mem_filter.2 ⟨listed, by simpa using same⟩)
  | pruned number event closed below top _ list =>
      by_cases found : subscription.id ∈ closed
      · obtain ⟨target, targetMade, same, -, wants, -⟩ :=
          (traced.publications number _ (top ▸ List.mem_cons_self)).found _ found
        obtain rfl : target = subscription := List.inj_on_of_nodup_map (accounts.nodup_ids few)
          targetMade (accounts.ordered.subset listed) same
        exact .inr (.inr ⟨number, event, closed, below, top, wants⟩)
      · exact .inl (list ▸ List.mem_filter.2 ⟨listed, by simpa using found⟩)

theorem stays_or_takesOff {kept : α} {plan : Plan α} {earlier : Nat} {subscription : Subscription}
    (listed : subscription ∈ (play plans earlier (start .empty kept plan)).bus.subscriptions)
    (count : Nat)
    (few : (made plans (earlier + count) (start .empty kept plan)).length < 2 ^ 64) :
    subscription ∈ (play plans (earlier + count) (start .empty kept plan)).bus.subscriptions ∨
      ∃ turn < count, (play plans (earlier + turn) (start .empty kept plan)).TakesOff subscription := by
  induction count with
  | zero => exact .inl listed
  | succ count ih =>
      have fewer : (made plans (earlier + count) (start .empty kept plan)).length < 2 ^ 64 := by
        rw [← Nat.add_assoc, made_succ, List.length_append] at few
        omega
      rcases ih fewer with there | ⟨turn, before, taken⟩
      · rcases listed_or_takesOff fewer there with there | taken
        · exact .inl there
        · exact .inr ⟨count, Nat.lt_succ_self _, taken⟩
      · exact .inr ⟨turn, Nat.lt_succ_of_lt before, taken⟩

/-- A call of `publish` in a run, be it made by a listener in the course of others or not, leaves no
channel on the list that wants the event and had been abandoned when the call began. All else stays on the
list until it is unsubscribed in the course of the call, or a publication of a kind that it wants ends: an
abandoned channel that does not want the event is still there when the call returns, unless a listener does
one or the other. -/
theorem abandoned_left_by_kind (plans : Plans α) (kept : α) (plan : Plan α) (earlier : Nat)
    (event : Event) (next : Plan α) (below : List (Frame α))
    (calls : (play plans earlier (start .empty kept plan)).frames =
      .listener (.publish event next) :: below)
    (count : Nat)
    (few : (made plans (earlier + 1 + count) (start .empty kept plan)).length < 2 ^ 64) :
    let first := start .empty kept plan
    let last := play plans (earlier + 1 + count) first
    (last.frames = .listener next :: below → ∀ channel ∈ last.bus.subscriptions,
      Abandoned plans first earlier channel → channel.kinds.has event.kind = false) ∧
    ∀ subscription ∈ (play plans earlier first).bus.subscriptions,
      subscription ∈ last.bus.subscriptions ∨
        ∃ turn < count, (play plans (earlier + 1 + turn) first).TakesOff subscription := by
  intro first last
  constructor
  · intro returned channel listed abandoned
    refine Bool.eq_false_iff.2 fun wants => ?_
    obtain ⟨-, owes | gone⟩ := owes_or_gone calls abandoned wants count few
    · -- The publication itself is over, and no older one has its number.
      obtain ⟨broadcast, member, -⟩ := owes
      have inside : .publication (play plans earlier first).begun broadcast ∈ below :=
        mem_of_mem_listener ((show last.frames = _ from returned) ▸ member)
      exact Nat.lt_irrefl _ ((start_numbered .empty kept plan).play earlier _ broadcast
        (calls ▸ List.mem_cons_of_mem _ inside))
    · exact (((play_accounts plans kept plan _).1.mem_ids_iff few channel.id).1
        (List.mem_map_of_mem listed)).2 gone
  · intro subscription listed
    have begun : (play plans (earlier + 1) first).bus.subscriptions =
        (play plans earlier first).bus.subscriptions := by
      rw [play_succ, step_of_listener plans calls]
      rfl
    exact stays_or_takesOff (begun ▸ listed) count few

/-- Two channels are opened, one of them for failures only, and both are abandoned before a render ends. -/
def forsaking : BusThread Unit :=
  start .empty () <|
    .use (.openChannel (.single .evalError)) fun _ => .use (.openChannel .all) fun _ =>
      .use (.dropReceiver ⟨0⟩) fun _ => .use (.dropReceiver ⟨1⟩) fun _ =>
        .publish (.sceneRendered 0) .done

def silent : Plans Unit := fun _ _ => .done

/-- When the call has returned, the channel that wants the event has gone, and the other is still there. -/
theorem forsaken_channel_of_that_kind_goes :
    (play silent 4 forsaking).frames = [.listener (.publish (.sceneRendered 0) .done)] ∧
      (play silent (4 + 1 + 2) forsaking).frames = [.listener .done] ∧
      Abandoned silent forsaking 4 ⟨⟨1⟩, .all, .channel⟩ ∧
      ⟨⟨1⟩, .all, .channel⟩ ∉ (play silent (4 + 1 + 2) forsaking).bus.subscriptions ∧
      ⟨⟨0⟩, .single .evalError, .channel⟩ ∈
        (play silent (4 + 1 + 2) forsaking).bus.subscriptions := by
  have calls : (play silent 4 forsaking).frames =
      [.listener (.publish (.sceneRendered 0) .done)] := rfl
  have returned : (play silent (4 + 1 + 2) forsaking).frames = [.listener .done] := rfl
  have abandoned : Abandoned silent forsaking 4 ⟨⟨1⟩, .all, .channel⟩ :=
    ⟨by decide +kernel, rfl, by decide +kernel⟩
  obtain ⟨others, -⟩ := abandoned_left_by_kind silent () _ 4 (.sceneRendered 0) .done [] calls 2
    (by decide +kernel)
  refine ⟨calls, returned, abandoned, fun listed => ?_, by decide +kernel⟩
  have unwanted : EventKinds.all.has (Event.sceneRendered 0).kind = false :=
    others returned _ listed abandoned
  exact absurd unwanted (by decide)

/-- An abandoned channel for failures only is not taken off by the first publication after its receiver
was dropped, and is still counted. -/
theorem forsaken_channel_of_another_kind_stays :
    ¬∀ (plans : Plans Unit) (plan : Plan Unit) (earlier count : Nat) (event : Event)
        (next : Plan Unit),
      (play plans earlier (start .empty () plan)).frames = [.listener (.publish event next)] →
        (play plans (earlier + 1 + count) (start .empty () plan)).frames = [.listener next] →
          ∀ channel ∈ (play plans (earlier + 1 + count) (start .empty () plan)).bus.subscriptions,
            ¬Abandoned plans (start .empty () plan) earlier channel := by
  intro pruned
  exact pruned silent _ 4 2 (.sceneRendered 0) .done (rfl : (play silent 4 forsaking).frames = _) rfl
    ⟨⟨0⟩, .single .evalError, .channel⟩ (by decide +kernel)
    ⟨by decide +kernel, rfl, by decide +kernel⟩

end BusThread

end RenderFarm
