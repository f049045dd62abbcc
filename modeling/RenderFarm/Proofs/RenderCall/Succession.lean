import RenderFarm.Proofs.RenderCall.Progress

/-!
# Renders one after the other

A `Succession` is a farm and the calls of render on it so far, each of which began when no other was under
way. A call is under way until its render withdraws, so that the next may begin while listeners are still
told that the last scene was rendered, be it that one of them starts it or another thread.

Whatever else goes on around the calls may cancel the active render, and leaves it active
(`Farm.Respects`). A call under way changes the cursor of its own render and no other
(`RenderCall.step_under_way`), and one that is over changes none (`RenderCall.step_over`).
-/

namespace RenderFarm

variable {ε σ Audience : Type}

namespace Farm

/-- The active render of a farm is the same later, and every cursor is, unless it is that of the active
render and was cancelled. -/
structure Respects (farm after : Farm ε σ Audience) : Prop where
  active : after.active = farm.active
  cursors : ∀ render, ∀ cursor ∈ farm.cursors[render]?, ∃ later ∈ after.cursors[render]?,
    later = cursor ∨ farm.active = some render ∧ later = cursor.cancel

theorem Respects.refl (farm : Farm ε σ Audience) : farm.Respects farm :=
  ⟨rfl, fun _ cursor there => ⟨cursor, there, .inl rfl⟩⟩

theorem Respects.trans {farm after last : Farm ε σ Audience} (first : farm.Respects after)
    (second : after.Respects last) : farm.Respects last where
  active := second.active.trans first.active
  cursors := by
    intro render cursor there
    obtain ⟨later, found, kept⟩ := first.cursors render cursor there
    obtain ⟨final, placed, kept'⟩ := second.cursors render later found
    refine ⟨final, placed, ?_⟩
    rw [first.active] at kept'
    rcases kept, kept' with ⟨rfl | ⟨active, rfl⟩, rfl | ⟨active', rfl⟩⟩
    · exact .inl rfl
    · exact .inr ⟨active', rfl⟩
    · exact .inr ⟨active, rfl⟩
    · exact .inr ⟨active, RowCursor.cancel_cancel cursor⟩

/-- A cancel in one piece is of the active render. -/
theorem respects_cancel (farm : Farm ε σ Audience) : farm.Respects farm.cancel.2 := by
  unfold cancel
  split
  · next render active =>
    refine ⟨rfl, fun other cursor there => ?_⟩
    simp only [modifyCursor, Array.getElem?_modify]
    by_cases own : render = other
    · subst own
      exact ⟨cursor.cancel, by simp [Option.mem_def.1 there], .inr ⟨active, rfl⟩⟩
    · exact ⟨cursor, by simpa [own] using there, .inl rfl⟩
  · exact .refl farm

/-- A cancel tells whether a render is active. -/
theorem fst_cancel (farm : Farm ε σ Audience) : farm.cancel.1 = farm.isRendering := by
  unfold cancel isRendering
  cases farm.active <;> rfl

/-- The active render of a farm is the same later, and every cursor but its own. -/
structure Frames (farm after : Farm ε σ Audience) : Prop where
  active : after.active = farm.active
  others : ∀ render, farm.active ≠ some render →
    ∀ cursor ∈ farm.cursors[render]?, cursor ∈ after.cursors[render]?

theorem Frames.refl (farm : Farm ε σ Audience) : farm.Frames farm :=
  ⟨rfl, fun _ _ _ there => there⟩

theorem Frames.trans {farm after last : Farm ε σ Audience} (first : farm.Frames after)
    (second : after.Frames last) : farm.Frames last :=
  ⟨second.active.trans first.active, fun render inactive cursor there =>
    second.others render (first.active ▸ inactive) cursor (first.others render inactive cursor there)⟩

theorem Respects.frames {farm after : Farm ε σ Audience} (respects : farm.Respects after) :
    farm.Frames after where
  active := respects.active
  others := by
    intro render inactive cursor there
    obtain ⟨later, found, rfl | ⟨active, -⟩⟩ := respects.cursors render cursor there
    · exact found
    · exact absurd active inactive

/-- The cursor of the active render may change. -/
theorem frames_modifyCursor {farm : Farm ε σ Audience} {render : Nat} (active : farm.active = some render)
    (change : RowCursor → RowCursor) : farm.Frames (farm.modifyCursor render change) where
  active := rfl
  others := by
    intro other inactive cursor there
    have different : render ≠ other := by
      rintro rfl
      exact inactive active
    simpa [modifyCursor, Array.getElem?_modify, different] using there

end Farm

/-- Callbacks may cancel the active render. -/
def Listeners.Respectful (listeners : Listeners ε σ Audience) : Prop :=
  ∀ id event (farm : Farm ε σ Audience), farm.Respects (listeners.onEvent id event farm)

namespace Listeners.Respectful

variable {listeners : Listeners ε σ Audience} (respectful : listeners.Respectful)
include respectful

theorem mayCancel (render : Nat) : listeners.MayCancel render := by
  intro id event farm cursor there
  obtain ⟨later, found, kept⟩ := (respectful id event farm).cursors render cursor there
  exact ⟨later, found, kept.imp_right And.right⟩

theorem respects (farm : Farm ε σ Audience) : Farm.Lasting listeners farm.Respects where
  bus := fun _ _ kept => ⟨kept.active, kept.cursors⟩
  audience := fun _ _ kept => ⟨kept.active, kept.cursors⟩
  callback := fun id event _ kept => kept.trans (respectful id event _)

theorem frames (farm : Farm ε σ Audience) : Farm.Lasting listeners farm.Frames where
  bus := fun _ _ kept => ⟨kept.active, kept.others⟩
  audience := fun _ _ kept => ⟨kept.active, kept.others⟩
  callback := fun id event _ kept => kept.trans (respectful id event _).frames

end Listeners.Respectful

/-- A call is under way until its render withdraws. -/
def RenderCall.Stage.isUnderWay : Stage → Bool
  | .opening _ | .driving => true
  | .ending .. | .returned _ => false

namespace RenderCall

/-- Another thread may cancel the active render, and may do anything that does not render. -/
def Move.Respectful : Move ε σ Audience → Prop
  | .meanwhile change => ∀ farm : Farm ε σ Audience, farm.Respects (change farm)
  | .drive _ | .cancel | .close => True

/-! ## What a call publishes -/

/-- The thread that renders publishes that the scene was loaded, and at the end that it was rendered. -/
def Stage.Announces : Stage → Prop
  | .opening telling => ∃ size, telling.event = .sceneLoaded size
  | .ending _ telling => ∃ elapsed, telling.event = .sceneRendered elapsed
  | .driving | .returned _ => True

/-- One of the threads of a call has a publication of this event under way. -/
def Publishes (call : RenderCall ε σ Audience) (event : Event) : Prop :=
  (∃ telling, call.stage = .opening telling ∧ telling.event = event) ∨
    (∃ id telling, call.telling id = some telling ∧ telling.event = event) ∨
    ∃ summary telling, call.stage = .ending summary telling ∧ telling.event = event

theorem Stage.exists_summary {stage : Stage} (ended : stage.isUnderWay = false) :
    ∃ summary, summary ∈ stage.summary? := by
  cases stage with
  | opening | driving => cases ended
  | ending summary | returned summary => exact ⟨summary, rfl⟩

/-- Lines are published while the call is under way. -/
theorem Publishes.cases {call : RenderCall ε σ Audience} {event : Event} (publishes : call.Publishes event)
    {size : Dimensions} {p : Progress} (runs : call.Runs size p) (announces : call.stage.Announces) :
    call.stage.isUnderWay = true ∧ ((∃ size, event = .sceneLoaded size) ∨
        ∃ row size colors, event = .lineComputed row size colors) ∨
      call.stage.isUnderWay = false ∧ ∃ elapsed, event = .sceneRendered elapsed := by
  rcases publishes with ⟨telling, stage, rfl⟩ | ⟨id, telling, told, rfl⟩ | ⟨summary, telling, stage, rfl⟩
  · rw [stage] at announces ⊢
    exact .inl ⟨rfl, .inl announces⟩
  · cases running : call.stage.isUnderWay with
    | true =>
        obtain ⟨driver, row, colors, -, -, event⟩ := Progress.exists_of_line? (runs.told id telling told)
        exact .inl ⟨rfl, .inr ⟨row, _, colors, event⟩⟩
    | false =>
        obtain ⟨summary, made⟩ := Stage.exists_summary running
        rw [runs.telling_of_stopped (runs.stopped made) id] at told
        cases told
  · rw [stage] at announces ⊢
    exact .inr ⟨rfl, announces⟩

/-! ## Steps -/

variable [Scene σ] [Evaluator ε σ] {listeners : Listeners ε σ Audience}

/-- A driver's step shows on the cursor of its own render only, which is the active one. -/
theorem frames_drive (respectful : listeners.Respectful) {rendering : Rendering ε σ Audience}
    (active : rendering.farm.active = some rendering.number) (id : Nat) :
    rendering.farm.Frames (rendering.drive listeners id).farm := by
  have frames := respectful.frames rendering.farm
  have keeps : Farm.Keeps listeners rendering.farm.Frames :=
    frames.keeps fun _ _ _ kept => ⟨kept.active, kept.others⟩
  have refl := Farm.Frames.refl rendering.farm
  unfold Rendering.drive
  split
  · exact refl
  · next driver found =>
    unfold Farm.stepDriver
    dsimp only
    split
    · exact refl
    · split
      · exact refl
      · exact Farm.frames_modifyCursor active _
      · next row phase => exact keeps.answerRow id row refl
      · exact frames.publish _ refl
      · exact refl

/-- A cancel in several accesses is of the active render. -/
theorem frames_cancel (listeners : Listeners ε σ Audience) {rendering : Rendering ε σ Audience}
    (active : rendering.farm.active = some rendering.number) :
    rendering.farm.Frames (rendering.step listeners .cancel).farm := by
  cases found : rendering.cursor? with
  | none =>
      simp only [Rendering.step, found, Option.map_none, Option.getD_none]
      exact .refl _
  | some cursor =>
      simp only [Rendering.step, found, Option.map_some, Option.getD_some, Rendering.cancel]
      split <;> exact Farm.frames_modifyCursor active _

section Step

variable {call : RenderCall ε σ Audience} {size : Dimensions} {p : Progress}
  (runs : call.Runs size p) (respectful : listeners.Respectful) {move : Move ε σ Audience}
  (others : move.Respectful)
include runs respectful others

/-- A call that is over does nothing but tell so. -/
theorem step_over (ended : call.stage.isUnderWay = false) (free : call.rendering.cancelling = none)
    (inactive : call.farm.active ≠ some call.rendering.number) :
    call.farm.Respects (call.step listeners move).farm ∧
      (call.step listeners move).stage.isUnderWay = false ∧
      (call.step listeners move).rendering.cancelling = none := by
  cases move with
  | drive id =>
      obtain ⟨summary, made⟩ := Stage.exists_summary ended
      have stopped := runs.stopped made
      have silent := runs.telling_of_stopped stopped id
      have unlined : call.rendering.line? id = none := by
        rw [runs.shows.line?, Progress.line?_of_stopped stopped]
      simp only [step, drive, silent, unlined, Rendering.drive_of_stopped listeners runs.shows stopped]
      exact ⟨.refl _, ended, free⟩
  | cancel =>
      have hidden : call.isExposed = false := by
        simp [isExposed, free, inactive]
      simp only [step, hidden, Bool.false_eq_true, if_false]
      exact ⟨.refl _, ended, free⟩
  | close =>
      simp only [step, close]
      cases stage : call.stage with
      | opening | driving => simp [stage, Stage.isUnderWay] at ended
      | returned summary => exact ⟨.refl _, ended, free⟩
      | ending summary telling =>
          have kept := (respectful.respects call.farm).broadcast telling (.refl call.farm)
          cases stepped : telling.step listeners.onEvent call.farm with
          | mk farm next =>
              rw [stepped] at kept
              cases next with
              | some next | none => simp only [stepped]; exact ⟨kept, rfl, free⟩
  | meanwhile change => exact ⟨others call.farm, ended, free⟩

end Step

theorem stage_drive (call : RenderCall ε σ Audience) (id : Nat) :
    (call.drive listeners id).stage = call.stage := by
  unfold drive
  split
  · dsimp only
    split <;> rfl
  · split <;> rfl

section UnderWay

/-- What a step of a call under way comes to: it goes on, and no cursor changes but that of the active
render, or its render withdraws. -/
inductive Continues (call after : RenderCall ε σ Audience) : Prop
  | goesOn (running : after.stage.isUnderWay = true) (frames : call.farm.Frames after.farm)
  | withdraws (ended : after.stage.isUnderWay = false) (free : after.rendering.cancelling = none)
    (inactive : after.farm.active = none) (cursors : after.farm.cursors = call.farm.cursors)

variable (respectful : listeners.Respectful) (call : RenderCall ε σ Audience)
include respectful

omit [Scene σ] [Evaluator ε σ] in
/-- A step of a publication shows on the cursor of the active render only. -/
theorem frames_of_step {telling : Broadcast} {next : Option Broadcast} {farm after : Farm ε σ Audience}
    (stepped : telling.step listeners.onEvent farm = (after, next)) : farm.Frames after := by
  have kept := (respectful.frames farm).broadcast telling (.refl farm)
  rwa [stepped] at kept

variable (running : call.stage.isUnderWay = true) (active : call.farm.active = some call.rendering.number)
include running active

theorem drive_under_way (id : Nat) : call.Continues (call.drive listeners id) := by
  have still : (call.drive listeners id).stage.isUnderWay = true := stage_drive call id ▸ running
  refine .goesOn still ?_
  cases telling : call.telling id with
  | none =>
      simp only [drive, telling]
      split
      · exact .refl _
      · exact frames_drive respectful active id
  | some telling' =>
      cases stepped : telling'.step listeners.onEvent call.farm with
      | mk farm next =>
          have kept := frames_of_step respectful stepped
          cases next with
          | some next =>
              rw [drive_of_hand listeners telling stepped]
              exact kept
          | none =>
              rw [drive_of_end listeners telling stepped]
              exact kept

theorem close_under_way : call.Continues (call.close listeners) := by
  simp only [close]
  cases stage : call.stage with
  | ending | returned => simp [stage, Stage.isUnderWay] at running
  | opening telling =>
      cases stepped : telling.step listeners.onEvent call.farm with
      | mk farm next =>
          have kept := frames_of_step respectful stepped
          cases next with
          | some next | none => simp only [stepped]; exact .goesOn rfl kept
  | driving =>
      cases report : call.rendering.report? with
      | none =>
          obtain ⟨closing, same⟩ := Rendering.step_close listeners call.rendering
          simp only [same]
          exact .goesOn rfl (.refl _)
      | some summary =>
          cases free : call.rendering.cancelling with
          | some cancelling => exact .goesOn running (.refl _)
          | none =>
              have withdrawn : call.farm.endRender call.rendering.number =
                  { call.farm with active := none } := by
                simp only [Farm.endRender, active, if_true]
              refine .withdraws rfl free ?_ ?_ <;> simp only [withdraw, withdrawn] <;> rfl

/-- A call under way changes nothing but the cursor of its render, which is the active one, until the render
withdraws. -/
theorem step_under_way {move : Move ε σ Audience} (others : move.Respectful) :
    call.Continues (call.step listeners move) := by
  cases move with
  | drive id => exact drive_under_way respectful call running active id
  | cancel =>
      simp only [step]
      split
      · exact .goesOn running (frames_cancel listeners active)
      · exact .goesOn running (.refl _)
  | close => exact close_under_way respectful call running active
  | meanwhile change => exact .goesOn running (others call.farm).frames

end UnderWay

theorem announces_step (listeners : Listeners ε σ Audience) (call : RenderCall ε σ Audience)
    (announces : call.stage.Announces) (move : Move ε σ Audience) :
    (call.step listeners move).stage.Announces := by
  cases move with
  | drive id =>
      simp only [step, stage_drive]
      exact announces
  | cancel =>
      simp only [step]
      split <;> exact announces
  | meanwhile change => exact announces
  | close =>
      simp only [step, close]
      split
      · next telling stage =>
        rw [stage] at announces
        obtain ⟨size, event⟩ := announces
        split
        · next stepped => exact ⟨size, (Broadcast.event_of_step _ stepped).trans event⟩
        · trivial
      · split
        · exact announces
        · exact ⟨_, rfl⟩
        · exact announces
      · next summary telling stage =>
        rw [stage] at announces
        obtain ⟨elapsed, event⟩ := announces
        split
        · next stepped => exact ⟨elapsed, (Broadcast.event_of_step _ stepped).trans event⟩
        · trivial
      · exact announces

end RenderCall

/-! ## Calls in succession -/

/-- A farm and the calls of render on it, in the order in which they began. What each call knows of the farm
is what it found when it moved last. -/
structure Succession (ε σ Audience : Type) where
  farm : Farm ε σ Audience
  calls : List (RenderCall ε σ Audience)

namespace Succession

/-- The next step of one of the threads around the calls. -/
inductive Move (ε σ Audience : Type) where
  /-- A call begins, unless another is under way. -/
  | begin (size : Dimensions)
  /-- One of the threads around a call takes a step. -/
  | call (number : Nat) (move : RenderCall.Move ε σ Audience)

/-- What is done beside the calls respects the active render. -/
def Move.Respectful : Move ε σ Audience → Prop
  | .begin _ => True
  | .call _ move => move.Respectful

/-- No call is under way that began after the one of this number. -/
def IsNewest (succession : Succession ε σ Audience) (number : Nat) : Prop :=
  ∀ newer ∈ succession.calls.drop (number + 1), newer.stage.isUnderWay = false

/-- What a farm is to answer to whether it renders, while the call of this number publishes an event. -/
def Answers (succession : Succession ε σ Audience) (number : Nat) : Event → Prop
  | .sceneLoaded _ | .lineComputed .. => succession.farm.isRendering = true
  | .sceneRendered _ => succession.IsNewest number → succession.farm.isRendering = false
  | .evalError _ | .stdoutWritten _ => False

/-- A farm on which no call has begun. -/
def start (farm : Farm ε σ Audience) : Succession ε σ Audience :=
  ⟨farm, []⟩

variable [Scene σ] [Evaluator ε σ] (listeners : Listeners ε σ Audience)

def step (succession : Succession ε σ Audience) : Move ε σ Audience → Succession ε σ Audience
  | .begin size =>
    if succession.calls.any (·.stage.isUnderWay) then succession
    else
      let call := RenderCall.start succession.farm size
      ⟨call.farm, succession.calls ++ [call]⟩
  | .call number move =>
    match succession.calls[number]? with
    | none => succession
    | some call =>
      let next := (call.setFarm succession.farm).step listeners move
      ⟨next.farm, succession.calls.set number next⟩

/-- Makes moves one after the other. -/
def play (succession : Succession ε σ Audience) (moves : List (Move ε σ Audience)) :
    Succession ε σ Audience :=
  moves.foldl (step listeners) succession

end Succession

end RenderFarm
