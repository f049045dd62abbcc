import RenderFarm.Farm.Render

/-!
# What listeners and workers leave alone

Most of what a farm does goes through listeners, and these may do anything. A property that survives
a change of a worker and what follows from an effect survives every request (`Keeps`). A `view` of a
farm, any function of it, gives such properties when callbacks keep it (`Unheard`). In a render the
cursor is of interest: callbacks may leave it alone (`SpareCursor`), or cancel the render
(`MayCancel`).
-/

namespace RenderFarm

namespace EventBus

variable {ω : Type} [Holder ω] {call : SubscriptionId → Event → ω → ω} {P : ω → Prop} {event : Event}

/-- Handing an event over keeps what its callbacks keep and the bus does not matter to. -/
theorem hand_keeps (calls : ∀ id world, P world → P (call id event world))
    (buses : ∀ (world : ω) bus, P world → P (Holder.setBus world bus))
    (progress : ω × List SubscriptionId) (target : Subscription) (holds : P progress.1) :
    P (hand call event progress target).1 := by
  unfold hand
  dsimp only
  split
  · exact calls _ _ holds
  · split
    · exact buses _ _ holds
    · exact holds

/-- A publication keeps what every hand-over and the removal of closed channels keep. -/
theorem publish_keeps
    (hands : ∀ progress target, P progress.1 → P (hand call event progress target).1)
    (prunes : ∀ (world : ω) closed, P world → P (prune world closed)) {world : ω}
    (holds : P world) : P (publish call event world) := by
  have handed : ∀ (targets : List Subscription) (progress : ω × List SubscriptionId),
      P progress.1 → P (targets.foldl (hand call event) progress).1 := by
    intro targets
    induction targets with
    | nil => exact fun _ holds => holds
    | cons target rest ih => exact fun progress holds => ih _ (hands progress target holds)
  exact prunes _ _ (handed _ (world, []) holds)

end EventBus

namespace Farm

variable {ε σ Audience β : Type}

/-- A property of a farm that outlasts changes of the bus and of the audience, and callbacks. -/
structure Lasting (listeners : Listeners ε σ Audience) (P : Farm ε σ Audience → Prop) : Prop where
  bus : ∀ farm bus, P farm → P { farm with bus := bus }
  audience : ∀ farm audience, P farm → P { farm with audience := audience }
  callback : ∀ id event farm, P farm → P (listeners.onEvent id event farm)

section Lasting

variable {listeners : Listeners ε σ Audience} {P : Farm ε σ Audience → Prop}
  (lasting : Lasting listeners P)
include lasting

theorem Lasting.hand (event : Event) (progress : Farm ε σ Audience × List SubscriptionId)
    (target : Subscription) (holds : P progress.1) :
    P (EventBus.hand listeners.onEvent event progress target).1 :=
  EventBus.hand_keeps (fun id => lasting.callback id event) lasting.bus progress target holds

theorem Lasting.publish (event : Event) {farm : Farm ε σ Audience} (holds : P farm) :
    P (farm.publish listeners event) :=
  EventBus.publish_keeps (lasting.hand event) (fun farm _ => lasting.bus farm _) holds

theorem Lasting.perform (id : Nat) (farm : Farm ε σ Audience) (effect : Effect) (holds : P farm) :
    P (farm.perform listeners id effect) := by
  cases effect with
  | reported report => exact lasting.audience farm _ holds
  | wrote text =>
      unfold Farm.perform
      dsimp only
      split
      · exact lasting.publish _ holds
      · exact holds

end Lasting

/-- A view of a farm that does not show the bus and the audience, nor what callbacks do. -/
structure Unheard (listeners : Listeners ε σ Audience) (view : Farm ε σ Audience → β) : Prop where
  bus : ∀ farm bus, view { farm with bus := bus } = view farm
  audience : ∀ farm audience, view { farm with audience := audience } = view farm
  callback : ∀ id event farm, view (listeners.onEvent id event farm) = view farm

namespace Unheard

variable {listeners : Listeners ε σ Audience} {view : Farm ε σ Audience → β}

theorem lasting (unheard : Unheard listeners view) (value : β) :
    Lasting listeners fun farm => view farm = value where
  bus := fun farm bus same => (unheard.bus farm bus).trans same
  audience := fun farm audience same => (unheard.audience farm audience).trans same
  callback := fun id event farm same => (unheard.callback id event farm).trans same

theorem publish (unheard : Unheard listeners view) (event : Event) (farm : Farm ε σ Audience) :
    view (farm.publish listeners event) = view farm :=
  (unheard.lasting _).publish event rfl

theorem perform (unheard : Unheard listeners view) (id : Nat) (farm : Farm ε σ Audience)
    (effect : Effect) : view (farm.perform listeners id effect) = view farm :=
  (unheard.lasting _).perform id farm effect rfl

theorem performAll (unheard : Unheard listeners view) (id : Nat) (effects : List Effect)
    (farm : Farm ε σ Audience) :
    view (effects.foldl (Farm.perform listeners id) farm) = view farm := by
  induction effects generalizing farm with
  | nil => rfl
  | cons effect rest ih => rw [List.foldl_cons, ih, unheard.perform]

end Unheard

/-- A render that ends withdraws, if anything. -/
theorem endRender_eq (farm : Farm ε σ Audience) (render : Nat) :
    ∃ active, farm.endRender render = { farm with active := active } := by
  unfold endRender
  split <;> exact ⟨_, rfl⟩

/-- A worker that was there is the one that was put in its place. -/
theorem getElem?_setWorker {farm : Farm ε σ Audience} {id : Nat} {worker : Worker ε σ}
    (there : farm.workers[id]? = some worker) (next : Worker ε σ) :
    (farm.setWorker id next).workers[id]? = some next := by
  obtain ⟨inside, -⟩ := Array.getElem?_eq_some_iff.1 there
  simp only [setWorker, Array.getElem?_setIfInBounds_self_of_lt inside]

@[simp]
theorem size_setWorker (farm : Farm ε σ Audience) (id : Nat) (worker : Worker ε σ) :
    (farm.setWorker id worker).workers.size = farm.workers.size :=
  Array.size_setIfInBounds

/-- Reports of a worker do not touch the workers. -/
theorem workers_reports {listeners : Listeners ε σ Audience} (id : Nat) {effects : List Effect}
    (reports : ∀ effect ∈ effects, ∃ report, effect = .reported report)
    (farm : Farm ε σ Audience) :
    (effects.foldl (perform listeners id) farm).workers = farm.workers := by
  induction effects generalizing farm with
  | nil => rfl
  | cons effect rest ih =>
      obtain ⟨report, rfl⟩ := reports effect (.head _)
      rw [List.foldl_cons, ih fun effect member => reports effect (.tail _ member)]
      rfl

/-! ## Requests -/

/-- A property of a farm that its workers and their effects do not touch. -/
structure Keeps (listeners : Listeners ε σ Audience) (P : Farm ε σ Audience → Prop) : Prop where
  setWorker : ∀ farm id worker, P farm → P (setWorker farm id worker)
  perform : ∀ id farm effect, P farm → P (perform listeners id farm effect)

theorem Lasting.keeps {listeners : Listeners ε σ Audience} {P : Farm ε σ Audience → Prop}
    (lasting : Lasting listeners P)
    (keepWorker : ∀ farm id worker, P farm → P (Farm.setWorker farm id worker)) :
    Keeps listeners P :=
  ⟨keepWorker, lasting.perform⟩

section Requests

variable {listeners : Listeners ε σ Audience} {P : Farm ε σ Audience → Prop}

theorem Keeps.performAll (keeps : Keeps listeners P) (id : Nat) (effects : List Effect)
    {farm : Farm ε σ Audience} (holds : P farm) :
    P (effects.foldl (Farm.perform listeners id) farm) := by
  induction effects generalizing farm with
  | nil => exact holds
  | cons effect rest ih => exact ih (keeps.perform id farm effect holds)

theorem Keeps.send (keeps : Keeps listeners P) (id : Nat) (request : Request)
    {farm : Farm ε σ Audience} (holds : P farm) : P (farm.send id request).2 := by
  unfold Farm.send
  split
  · exact holds
  · exact keeps.setWorker _ _ _ holds

variable [Scene σ] [Evaluator ε σ]

/-- One step of waiting, once the reply is not there yet. -/
theorem await_succ {farm : Farm ε σ Audience} {id ticket : Nat} {worker : Worker ε σ}
    (there : farm.workers[id]? = some worker) (absent : worker.collect? ticket = none)
    (count : Nat) :
    await listeners id ticket (count + 1) farm =
      match worker.step? farm.now with
      | some (next, effects) =>
        await listeners id ticket count
          (effects.foldl (Farm.perform listeners id) (farm.setWorker id next))
      | none => (.error (.disconnected id), farm) := by
  rw [await]
  simp only [there, absent]
  cases worker.step? farm.now with
  | none => rfl
  | some taken => rfl

/-- A request to a worker that is there is a wait for what it makes of the request. -/
theorem request_eq {farm : Farm ε σ Audience} {id : Nat} {worker : Worker ε σ}
    (there : farm.workers[id]? = some worker) (request : Request) :
    farm.request listeners id request =
      await listeners id (worker.send request).1 (worker.send request).2.work
        (farm.setWorker id (worker.send request).2) := by
  simp only [Farm.request, send, there, receive, getElem?_setWorker there, Option.map_some,
    Option.getD_some]

theorem Keeps.await (keeps : Keeps listeners P) (id ticket count : Nat)
    {farm : Farm ε σ Audience} (holds : P farm) : P (await listeners id ticket count farm).2 := by
  induction count generalizing farm with
  | zero =>
      unfold Farm.await
      split
      · exact holds
      · split
        · exact keeps.setWorker _ _ _ holds
        · exact holds
  | succ count ih =>
      cases there : farm.workers[id]? with
      | none => simpa only [Farm.await, there] using holds
      | some worker =>
          cases absent : worker.collect? ticket with
          | some collected =>
              simp only [Farm.await, there, absent]
              exact keeps.setWorker _ _ _ holds
          | none =>
              rw [await_succ there absent]
              split
              · exact ih (keeps.performAll id _ (keeps.setWorker _ _ _ holds))
              · exact holds

theorem Keeps.request (keeps : Keeps listeners P) (id : Nat) (request : Request)
    {farm : Farm ε σ Audience} (holds : P farm) : P (farm.request listeners id request).2 := by
  have sent := keeps.send id request holds
  unfold Farm.request
  split
  · next found => rwa [found] at sent
  · next found =>
      rw [found] at sent
      exact keeps.await _ _ _ sent

theorem Keeps.answerRow (keeps : Keeps listeners P) (id : Nat) (row : UInt32)
    {farm : Farm ε σ Audience} (holds : P farm) : P (farm.answerRow listeners id row).2 := by
  have asked := keeps.request id (.compute row) holds
  unfold Farm.answerRow
  split <;> next found => rwa [found] at asked

/-- A step of a driver keeps what requests and publications keep, and a claim. -/
theorem Keeps.stepDriver (keeps : Keeps listeners P) {render : Nat}
    (claims : ∀ farm cursor, farm.cursors[render]? = some cursor → P farm →
      P (farm.modifyCursor render fun _ => cursor.claim.2))
    (publishes : ∀ event farm, P farm → P (farm.publish listeners event)) (id : Nat)
    (driver : RowDriver) {farm : Farm ε σ Audience} (holds : P farm) :
    P (farm.stepDriver listeners render id driver).2 := by
  unfold Farm.stepDriver
  split
  · exact holds
  · next cursor there =>
    split
    · exact holds
    · exact claims _ _ there holds
    · exact keeps.answerRow _ _ holds
    · exact publishes _ _ holds
    · exact holds

end Requests

end Farm

/-! ## The cursor of a render -/

/-- Callbacks leave the cursor of a render alone. When a callback cancels the render, the accesses of
that cancel count as moves beside the callback, as those of any other cancel do. -/
def Listeners.SpareCursor {ε σ Audience : Type} (listeners : Listeners ε σ Audience)
    (render : Nat) : Prop :=
  ∀ id event farm, (listeners.onEvent id event farm).cursors[render]? = farm.cursors[render]?

theorem Listeners.SpareCursor.unheard {ε σ Audience : Type} {listeners : Listeners ε σ Audience}
    {render : Nat} (spare : listeners.SpareCursor render) :
    Farm.Unheard listeners fun farm => farm.cursors[render]? where
  bus := fun _ _ => rfl
  audience := fun _ _ => rfl
  callback := spare

theorem Listeners.SpareCursor.lasting {ε σ Audience : Type} {listeners : Listeners ε σ Audience}
    {render : Nat} (spare : listeners.SpareCursor render) (cursor : RowCursor) :
    Farm.Lasting listeners fun farm =>
      ∃ after, farm.cursors[render]? = some after ∧ after = cursor where
  bus := fun _ _ kept => kept
  audience := fun _ _ kept => kept
  callback := fun id event farm kept => by rwa [spare id event farm]

/-- Callbacks do nothing to the cursor of a render but cancel it, which they do in one piece. -/
def Listeners.MayCancel {ε σ Audience : Type} (listeners : Listeners ε σ Audience)
    (render : Nat) : Prop :=
  ∀ id event farm, ∀ cursor ∈ farm.cursors[render]?,
    ∃ after ∈ (listeners.onEvent id event farm).cursors[render]?,
      after = cursor ∨ after = cursor.cancel

theorem Listeners.SpareCursor.mayCancel {ε σ Audience : Type} {listeners : Listeners ε σ Audience}
    {render : Nat} (spare : listeners.SpareCursor render) : listeners.MayCancel render :=
  fun id event farm cursor there => ⟨cursor, (spare id event farm).trans there, .inl rfl⟩

/-- Another cancel finds nothing left to take. -/
theorem RowCursor.cancel_cancel (cursor : RowCursor) : cursor.cancel.cancel = cursor.cancel := by
  simp [cancel, take, record, raise, unclaimed]

/-- What callbacks that may cancel leave of a cursor, however often they do. -/
theorem Listeners.MayCancel.lasting {ε σ Audience : Type} {listeners : Listeners ε σ Audience}
    {render : Nat} (lenient : listeners.MayCancel render) (cursor : RowCursor) :
    Farm.Lasting listeners fun farm =>
      ∃ after, farm.cursors[render]? = some after ∧ (after = cursor ∨ after = cursor.cancel) where
  bus := fun _ _ kept => kept
  audience := fun _ _ kept => kept
  callback := by
    rintro id event farm ⟨before, there, same | cancelled⟩
    · subst same
      exact lenient id event farm _ there
    · obtain ⟨after, found, same | again⟩ := lenient id event farm before there
      · exact ⟨after, found, .inr (same.trans cancelled)⟩
      · refine ⟨after, found, .inr ?_⟩
        rw [again, cancelled, RowCursor.cancel_cancel]

/-- Listeners that do nothing. -/
def Listeners.silent {ε σ Audience : Type} : Listeners ε σ Audience :=
  ⟨fun _ _ farm => farm, fun _ audience => audience⟩

theorem Listeners.silent_spareCursor {ε σ Audience : Type} (render : Nat) :
    (silent : Listeners ε σ Audience).SpareCursor render :=
  fun _ _ _ => rfl

end RenderFarm
