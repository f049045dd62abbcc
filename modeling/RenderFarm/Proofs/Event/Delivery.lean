import RenderFarm.Proofs.Event.Reentrance

/-!
# Every subscription gets its turn

A publication takes the turns of the subscriptions that were on the list when it began and want the
event, in the order of the list, whatever the listeners that it calls do to the bus
(`delivered_in_order`). It returns if listeners publish to a finite depth only (`returns_of_nestsWithin`),
and it does what `EventBus.publish` does in one piece (`publish_in_steps`).
-/

namespace RenderFarm

namespace BusThread

variable {α : Type} (plans : Plans α)

/-! ## Calls that return -/

/-- As long as more than `height` frames are there, there are no more than `depth`. -/
def NestsWithin (depth height : Nat) (thread : BusThread α) : Prop :=
  ∀ count, (∀ earlier ≤ count, height < (play plans earlier thread).frames.length) →
    (play plans count thread).frames.length ≤ depth

/-- A thread that takes steps above the frames `below` until only those are left. -/
inductive Returns (below : List (Frame α)) : BusThread α → BusThread α → Prop
  | here {thread : BusThread α} (top : thread.frames = below) : Returns below thread thread
  | step {thread last : BusThread α} (above : below.length < thread.frames.length)
    (rest : Returns below (thread.step plans) last) : Returns below thread last

variable {plans}

namespace Returns

variable {below inner : List (Frame α)} {thread middle last : BusThread α}

theorem top (returns : Returns plans below thread last) : last.frames = below := by
  induction returns with
  | here top => exact top
  | step _ _ ih => exact ih

/-- What happens above higher frames happens above lower ones. -/
theorem trans (first : Returns plans inner thread middle) (higher : below.length < inner.length)
    (rest : Returns plans below middle last) : Returns plans below thread last := by
  induction first with
  | here => exact rest
  | step above _ ih => exact .step (Nat.lt_trans higher above) (ih rest)

theorem exists_play (returns : Returns plans below thread last) :
    ∃ count, play plans count thread = last := by
  induction returns with
  | here => exact ⟨0, rfl⟩
  | step _ _ ih =>
      obtain ⟨count, reached⟩ := ih
      exact ⟨count + 1, reached⟩

end Returns

namespace NestsWithin

variable {depth height : Nat} {thread last : BusThread α}

theorem step (nests : NestsWithin plans depth height thread) (above : height < thread.frames.length) :
    NestsWithin plans depth height (thread.step plans) := by
  intro count higher
  refine nests (count + 1) fun earlier within => ?_
  cases earlier with
  | zero => exact above
  | succ earlier => exact higher earlier (Nat.le_of_succ_le_succ within)

theorem mono {lower : Nat} (nests : NestsWithin plans depth lower thread) (le : lower ≤ height) :
    NestsWithin plans depth height thread :=
  fun count higher => nests count fun earlier within => Nat.lt_of_le_of_lt le (higher earlier within)

theorem of_returns {inner : List (Frame α)} (nests : NestsWithin plans depth height thread)
    (higher : height ≤ inner.length) (returns : Returns plans inner thread last) :
    NestsWithin plans depth height last := by
  induction returns with
  | here => exact nests
  | step above _ ih => exact ih (nests.step (Nat.lt_of_le_of_lt higher above))

/-- A thread that comes down to `height` frames nests within what it has nested to until then. -/
theorem of_play {count : Nat} (down : (play plans count thread).frames.length ≤ height)
    (bounded : ∀ earlier < count, (play plans earlier thread).frames.length ≤ depth) :
    NestsWithin plans depth height thread := by
  intro reached higher
  rcases Nat.lt_or_ge reached count with before | after
  · exact bounded reached before
  · exact absurd (higher count after) (Nat.not_lt.2 down)

end NestsWithin

/-- The next turn of a publication leaves it with its other turns, below the listener that is called,
if there is one. -/
theorem step_of_turn {thread : BusThread α} {number : Nat} {event : Event} {target : Subscription}
    {rest : List Subscription} {closed : List SubscriptionId} {below : List (Frame α)}
    (top : thread.frames = .publication number ⟨event, target :: rest, closed⟩ :: below) :
    let handed := EventBus.hand (fun _ _ bus => bus) event (thread.bus, closed) target
    thread.step plans = { thread with
      bus := handed.1
      frames := called plans event target ++ .publication number ⟨event, rest, handed.2⟩ :: below } := by
  rw [step_of_publication plans top]
  simp [serve, Broadcast.step]

theorem step_of_spent {thread : BusThread α} {number : Nat} {event : Event}
    {closed : List SubscriptionId} {below : List (Frame α)}
    (top : thread.frames = .publication number ⟨event, [], closed⟩ :: below) :
    thread.step plans = { thread with
      bus := EventBus.prune thread.bus closed
      frames := below } := by
  rw [step_of_publication plans top]
  simp [serve, Broadcast.step]

variable (plans) in
/-- Whatever is called above another frame and `below` comes back to that frame. -/
def CallsReturn (depth : Nat) (below : List (Frame α)) : Prop :=
  ∀ (thread : BusThread α) (call frame : Frame α), thread.frames = call :: frame :: below →
    NestsWithin plans depth below.length thread →
      ∃ middle, Returns plans (frame :: below) thread middle

namespace CallsReturn

variable {depth : Nat} {below : List (Frame α)}

theorem plan (calls : CallsReturn plans depth below) (plan : Plan α) {thread : BusThread α}
    (top : thread.frames = .listener plan :: below)
    (nests : NestsWithin plans depth below.length thread) :
    ∃ last, Returns plans below thread last := by
  induction plan generalizing thread with
  | done =>
      have above : below.length < thread.frames.length := by simp [top]
      have next : (thread.step plans).frames = below := by
        rw [step_of_listener plans top]
        rfl
      exact ⟨_, .step above (.here next)⟩
  | read next ih =>
      have above : below.length < thread.frames.length := by simp [top]
      have goes : (thread.step plans).frames = .listener (next thread.kept) :: below := by
        rw [step_of_listener plans top]
        rfl
      obtain ⟨last, returns⟩ := ih _ goes (nests.step above)
      exact ⟨last, .step above returns⟩
  | write kept next ih =>
      have above : below.length < thread.frames.length := by simp [top]
      have goes : (thread.step plans).frames = .listener next :: below := by
        rw [step_of_listener plans top]
        rfl
      obtain ⟨last, returns⟩ := ih goes (nests.step above)
      exact ⟨last, .step above returns⟩
  | use operation next ih =>
      have above : below.length < thread.frames.length := by simp [top]
      have goes : (thread.step plans).frames =
          .listener (next (thread.bus.perform operation).1) :: below := by
        rw [step_of_listener plans top]
        rfl
      obtain ⟨last, returns⟩ := ih _ goes (nests.step above)
      exact ⟨last, .step above returns⟩
  | publish event next ih =>
      have above : below.length < thread.frames.length := by simp [top]
      have goes : (thread.step plans).frames = .publication thread.begun (.start thread.bus event) ::
          .listener next :: below := by
        rw [step_of_listener plans top]
        rfl
      have stepped := nests.step above
      obtain ⟨middle, first⟩ := calls _ _ _ goes stepped
      obtain ⟨last, rest⟩ := ih first.top (stepped.of_returns (Nat.le_succ _) first)
      exact ⟨last, .step above (first.trans (Nat.lt_succ_self _) rest)⟩

theorem publication (calls : CallsReturn plans depth below) {number : Nat} {broadcast : Broadcast}
    {thread : BusThread α} (top : thread.frames = .publication number broadcast :: below)
    (nests : NestsWithin plans depth below.length thread) :
    ∃ last, Returns plans below thread last := by
  obtain ⟨event, turns, closed⟩ := broadcast
  induction turns generalizing thread closed with
  | nil =>
      have above : below.length < thread.frames.length := by simp [top]
      exact ⟨_, .step above (.here (congrArg frames (step_of_spent top)))⟩
  | cons target rest ih =>
      have above : below.length < thread.frames.length := by simp [top]
      have goes : (thread.step plans).frames = _ := congrArg frames (step_of_turn top)
      have stepped := nests.step above
      dsimp only at goes
      unfold called at goes
      split at goes
      · obtain ⟨middle, first⟩ := calls _ _ _ goes stepped
        obtain ⟨last, after⟩ := ih (stepped.of_returns (Nat.le_succ _) first) _ first.top
        exact ⟨last, .step above (first.trans (Nat.lt_succ_self _) after)⟩
      · obtain ⟨last, after⟩ := ih stepped _ goes
        exact ⟨last, .step above after⟩

end CallsReturn

/-- Listeners that nest to a finite depth return. -/
theorem returns_of_nestsWithin (room : Nat) {thread : BusThread α} {frame : Frame α}
    {below : List (Frame α)} (top : thread.frames = frame :: below)
    (nests : NestsWithin plans (below.length + room) below.length thread) :
    ∃ last, Returns plans below thread last := by
  induction room generalizing thread frame below with
  | zero =>
      have deep : thread.frames.length ≤ below.length := nests 0 fun earlier within => by
        rw [Nat.le_zero.1 within]
        simp [play, top]
      simp only [top, List.length_cons] at deep
      omega
  | succ room ih =>
      have calls : CallsReturn plans (below.length + (room + 1)) below := by
        intro thread call frame top nests
        have same : (frame :: below).length + room = below.length + (room + 1) := by
          simp only [List.length_cons]
          omega
        exact ih top (same ▸ nests.mono (Nat.le_succ _))
      cases frame with
      | listener plan => exact calls.plan plan top nests
      | publication number broadcast => exact calls.publication top nests

/-! ## Publications in one piece -/

instance : EventBus.Holder (EventBus × α) :=
  ⟨Prod.fst, fun world bus => (bus, world.2), fun _ _ => rfl⟩

/-- The bus and what the listeners keep. -/
def world (thread : BusThread α) : EventBus × α :=
  (thread.bus, thread.kept)

variable (plans) in
/-- A function of the world that is what the plans of listeners come to. -/
def CarriedOut (call : SubscriptionId → Event → EventBus × α → EventBus × α) : Prop :=
  ∀ (thread : BusThread α) (id : SubscriptionId) (event : Event) (below : List (Frame α)),
    thread.frames = .listener (plans id event) :: below →
      ∃ last, Returns plans below thread last ∧ last.world = call id event thread.world

section Pieces

variable {call : SubscriptionId → Event → EventBus × α → EventBus × α}

/-- A publication under way comes to what is left of it. -/
theorem CarriedOut.finish (carried : CarriedOut plans call) {thread : BusThread α} {number : Nat}
    {broadcast : Broadcast} {below : List (Frame α)}
    (top : thread.frames = .publication number broadcast :: below) :
    ∃ last, Returns plans below thread last ∧ last.world = broadcast.finish call thread.world := by
  obtain ⟨event, turns, closed⟩ := broadcast
  induction turns generalizing thread closed with
  | nil =>
      have above : below.length < thread.frames.length := by simp [top]
      have stepped : thread.step plans = _ := step_of_spent top
      refine ⟨_, .step above (.here (congrArg frames stepped)), ?_⟩
      rw [stepped]
      rfl
  | cons target rest ih =>
      have above : below.length < thread.frames.length := by simp [top]
      have stepped : thread.step plans = _ := step_of_turn top
      cases route : target.route with
      | callback =>
          have goes : (thread.step plans).frames = .listener (plans target.id event) ::
              .publication number ⟨event, rest, closed⟩ :: below := by
            simp only [stepped, called, route, EventBus.hand, List.singleton_append]
          have same : (thread.step plans).world = thread.world := by
            simp only [stepped, world, route, EventBus.hand]
          obtain ⟨middle, first, called⟩ := carried _ _ _ _ goes
          obtain ⟨last, after, finished⟩ := ih closed first.top
          refine ⟨last, .step above (first.trans (Nat.lt_succ_self _) after), ?_⟩
          rw [finished, called, same]
          simp only [Broadcast.finish, List.foldl_cons, EventBus.hand, route]
      | channel =>
          have goes : (thread.step plans).frames = .publication number ⟨event, rest,
              (EventBus.hand (fun _ _ bus => bus) event (thread.bus, closed) target).2⟩ :: below := by
            simp only [stepped, called, route, List.nil_append]
          obtain ⟨last, after, finished⟩ := ih _ goes
          refine ⟨last, .step above after, ?_⟩
          have same : EventBus.hand call event (thread.world, closed) target =
              ((thread.step plans).world,
                (EventBus.hand (fun _ _ bus => bus) event (thread.bus, closed) target).2) := by
            cases opened : thread.bus.isOpen target.id <;>
              simp [stepped, world, EventBus.hand, route, EventBus.Holder.bus,
                EventBus.Holder.setBus, opened]
          rw [finished]
          simp only [Broadcast.finish, List.foldl_cons, same]

/-- A call of `publish` does step by step what `EventBus.publish` does in one piece. -/
theorem publish_in_steps (carried : CarriedOut plans call) {thread : BusThread α} {event : Event}
    {next : Plan α} {below : List (Frame α)}
    (top : thread.frames = .listener (.publish event next) :: below) :
    ∃ last, Returns plans (.listener next :: below) (thread.step plans) last ∧
      last.world = EventBus.publish call event thread.world := by
  have begun : thread.step plans = thread.follow below (.publish event next) :=
    step_of_listener plans top
  obtain ⟨last, returns, world⟩ := carried.finish (congrArg frames begun)
  refine ⟨last, returns, world.trans ?_⟩
  rw [begun]
  rfl

end Pieces

/-! ## Every publication of a run -/

variable (plans) in
/-- The next step hands an event over just where a publication comes to a turn: a callback is called
with the event, a channel that has a receiver gets it behind all that waits there. No other step calls
a listener or queues an event. -/
def Delivers (thread : BusThread α) : Prop :=
  match thread.handover? with
  | some handover =>
    match handover.target.route with
    | .callback =>
      thread.Calls (thread.step plans) (plans handover.target.id handover.event) ∧
        (thread.step plans).bus = thread.bus
    | .channel =>
      (∀ plan, ¬thread.Calls (thread.step plans) plan) ∧
        (thread.step plans).bus = thread.bus.post handover.target.id handover.event
  | none =>
    (∀ plan, ¬thread.Calls (thread.step plans) plan) ∧
      ∀ receiver ∈ (thread.step plans).bus.receivers,
        receiver ∈ thread.bus.receivers ∨ receiver.waiting = #[]

theorem delivers (thread : BusThread α) : thread.Delivers plans := by
  unfold Delivers
  cases turn : thread.handover? with
  | none => exact step_of_quiet plans turn
  | some handover =>
      cases route : handover.target.route with
      | callback => simpa only [route] using step_of_callback plans turn route
      | channel => simpa only [route] using step_of_channel plans turn route

theorem start_numbered (bus : EventBus) (kept : α) (plan : Plan α) :
    (start bus kept plan).Numbered := by
  intro number broadcast member
  cases List.mem_singleton.1 member

/-- The turns left of a publication are gone when only older frames are there. -/
theorem filter_due_eq_nil {frames : List (Frame α)} {number : Nat}
    (older : ∀ other broadcast, .publication other broadcast ∈ frames → other < number) :
    (frames.flatMap Frame.due).filter (·.number == number) = [] := by
  rw [List.filter_eq_nil_iff]
  intro handover member
  obtain ⟨frame, inside, due⟩ := List.mem_flatMap.1 member
  cases frame with
  | listener plan => cases due
  | publication other broadcast =>
      obtain ⟨target, -, rfl⟩ := List.mem_map.1 due
      simpa using Nat.ne_of_lt (older other broadcast inside)

/-- The frames that a call of `publish` leaves below it have no turn with its number. -/
theorem filter_due_below {caller : BusThread α} (numbered : caller.Numbered) {event : Event}
    {next : Plan α} {below : List (Frame α)}
    (calls : caller.frames = .listener (.publish event next) :: below) :
    ((Frame.listener next :: below).flatMap Frame.due).filter (·.number == caller.begun) = [] := by
  refine filter_due_eq_nil fun number broadcast inside => ?_
  have earlier := (List.mem_cons.1 inside).resolve_left nofun
  exact numbered _ _ (calls ▸ List.mem_cons_of_mem _ earlier)

/-- The turns that a call of `publish` has come to, and those that are left to it, are those of the
subscriptions that were on the list when it began and want the event. -/
theorem handovers_of_call (plans : Plans α) {caller : BusThread α} (numbered : caller.Numbered)
    {event : Event} {next : Plan α} {below : List (Frame α)}
    (calls : caller.frames = .listener (.publish event next) :: below) (count : Nat) :
    (handovers plans count (caller.step plans)).filter (·.number == caller.begun) ++
        (play plans count (caller.step plans)).due.filter (·.number == caller.begun) =
      (caller.bus.targets event).map (Handover.mk caller.begun event) := by
  have begun : caller.step plans = caller.follow below (.publish event next) :=
    step_of_listener plans calls
  have top : (caller.step plans).frames = .publication caller.begun (.start caller.bus event) ::
      .listener next :: below := congrArg frames begun
  have later : caller.begun < (caller.step plans).begun := by
    rw [begun]
    exact Nat.lt_succ_self _
  have own : ((caller.bus.targets event).map (Handover.mk caller.begun event)).filter
      (·.number == caller.begun) = (caller.bus.targets event).map (Handover.mk caller.begun event) := by
    rw [List.filter_eq_self]
    intro handover member
    obtain ⟨target, -, rfl⟩ := List.mem_map.1 member
    simp
  rw [handovers_due plans count later, due, top, List.flatMap_cons, List.filter_append,
    filter_due_below numbered calls, List.append_nil]
  exact own

/-- Each call of `publish` in a run, be it made by a listener in the course of others or not, comes to
the subscriptions that were on the list when it began and want the event, to each of them once and in
their order, and to no others; it returns if it nests to a finite depth, and has come to all of them
then. -/
theorem delivered_in_order (plans : Plans α) (bus : EventBus) (kept : α) (plan : Plan α)
    (earlier : Nat) (event : Event) (next : Plan α) (below : List (Frame α))
    (calls : (play plans earlier (start bus kept plan)).frames =
      .listener (.publish event next) :: below) :
    let caller := play plans earlier (start bus kept plan)
    let call := caller.step plans
    let turns := (caller.bus.targets event).map (Handover.mk caller.begun event)
    (∀ count, (handovers plans count call).filter (·.number == caller.begun) <+: turns) ∧
      (∀ count, (play plans count call).frames = .listener next :: below →
        (handovers plans count call).filter (·.number == caller.begun) = turns) ∧
      (∀ depth, NestsWithin plans depth (below.length + 1) call →
        ∃ count, (play plans count call).frames = .listener next :: below) ∧
      ∀ count, (play plans count call).Delivers plans := by
  intro caller call turns
  have numbered : caller.Numbered := (start_numbered bus kept plan).play earlier
  have conserved (count : Nat) : (handovers plans count call).filter (·.number == caller.begun) ++
      (play plans count call).due.filter (·.number == caller.begun) = turns :=
    handovers_of_call plans numbered calls count
  refine ⟨fun count => ⟨_, conserved count⟩, ?_, ?_, fun count => delivers _⟩
  · intro count returned
    have all := conserved count
    rwa [due, returned, filter_due_below numbered calls, List.append_nil] at all
  · intro depth nests
    have top : call.frames = .publication caller.begun (.start caller.bus event) ::
        .listener next :: below := congrArg frames (step_of_listener plans calls)
    obtain ⟨last, returns⟩ := returns_of_nestsWithin depth top fun count higher =>
      Nat.le_trans (nests count higher) (Nat.le_add_left _ _)
    obtain ⟨count, reached⟩ := returns.exists_play
    exact ⟨count, reached ▸ returns.top⟩

/-- Called about the end of a render, the first listener removes the third, opens a channel and
publishes something else. -/
def meddling : Plans Unit := fun id event =>
  if id.number = 0 ∧ event.kind = .sceneRendered then
    .use (.unsubscribe ⟨2⟩) fun _ => .use (.openChannel .all) fun _ =>
      .publish (.evalError "again") .done
  else .done

/-- A bus with a callback, a channel and another callback. -/
def meddledBus : EventBus :=
  (((EventBus.empty.subscribe .all).2.openChannel .all).2.subscribe .all).2

/-- The listener that is removed in the course of a publication still gets its turn, and the channel
that is opened gets none. -/
theorem removed_listener_gets_its_turn :
    let call := (start meddledBus () (.publish (.sceneRendered 0) .done)).step meddling
    ∃ count, (play meddling count call).frames = [.listener .done] ∧
      ((handovers meddling count call).filter (·.number == 0)).map (·.target.id) =
        [⟨0⟩, ⟨1⟩, ⟨2⟩] := by
  intro call
  obtain ⟨-, whole, returns, -⟩ := delivered_in_order meddling meddledBus ()
    (.publish (.sceneRendered 0) .done) 0 (.sceneRendered 0) .done [] rfl
  have back : (play meddling 14 call).frames.length ≤ 1 := by decide +kernel
  have nests : NestsWithin meddling 6 1 call := .of_play back (by decide +kernel)
  obtain ⟨count, top⟩ := returns 6 nests
  refine ⟨count, top, ?_⟩
  have turns : (handovers meddling count call).filter (·.number == 0) =
      (meddledBus.targets (.sceneRendered 0)).map (Handover.mk 0 (.sceneRendered 0)) :=
    whole count top
  rw [turns]
  decide +kernel

end BusThread

end RenderFarm
