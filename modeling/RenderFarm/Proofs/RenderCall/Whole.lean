import RenderFarm.Proofs.RenderCall.Progress
import RenderFarm.Proofs.Rendering.Turns

/-!
# A render in one piece

`Farm.render` makes every publication in one piece and lets the drivers take turns. It is one of the
plays of a call (`render_is_play`): the steps of a publication made in a row are the publication,
the steps of a driver are those of a rendering, and rounds of turns stop all drivers. So what holds of
every play holds of it.
-/

namespace RenderFarm.RenderCall

variable {ε σ Audience : Type} [Scene σ] [Evaluator ε σ] (listeners : Listeners ε σ Audience)

/-- A call after any number of moves of its own threads. -/
def MovesTo (before after : RenderCall ε σ Audience) : Prop :=
  ∃ moves : List (Move ε σ Audience),
    (∀ move ∈ moves, (∃ id, move = .drive id) ∨ move = .close) ∧
      after = before.play listeners moves

theorem MovesTo.refl (call : RenderCall ε σ Audience) : MovesTo listeners call call :=
  ⟨[], by simp, rfl⟩

variable {listeners} in
theorem MovesTo.trans {first second third : RenderCall ε σ Audience}
    (one : MovesTo listeners first second) (other : MovesTo listeners second third) :
    MovesTo listeners first third := by
  obtain ⟨before, own, rfl⟩ := one
  obtain ⟨after, own', rfl⟩ := other
  refine ⟨before ++ after, fun move member => ?_, by rw [play_append]⟩
  rcases List.mem_append.1 member with here | there
  · exact own move here
  · exact own' move there

theorem MovesTo.drive (call : RenderCall ε σ Audience) (id : Nat) :
    MovesTo listeners call (call.drive listeners id) :=
  ⟨[.drive id], by simp, rfl⟩

theorem MovesTo.close (call : RenderCall ε σ Audience) :
    MovesTo listeners call (call.close listeners) :=
  ⟨[.close], by simp, rfl⟩

/-- Steps of a publication, whoever makes them, add up to the publication. -/
theorem movesTo_finish (underway : Broadcast → Farm ε σ Audience → RenderCall ε σ Audience)
    (done : Farm ε σ Audience → RenderCall ε σ Audience)
    (hands : ∀ (telling : Broadcast) farm after next,
      telling.step listeners.onEvent farm = (after, some next) →
        MovesTo listeners (underway telling farm) (underway next after))
    (ends : ∀ (telling : Broadcast) farm after,
      telling.step listeners.onEvent farm = (after, none) →
        MovesTo listeners (underway telling farm) (done after))
    (telling : Broadcast) (farm : Farm ε σ Audience) :
    MovesTo listeners (underway telling farm) (done (telling.finish listeners.onEvent farm)) := by
  obtain ⟨event, rest, closed⟩ := telling
  induction rest generalizing closed farm with
  | nil => exact ends _ _ _ (Broadcast.step_nil listeners.onEvent rfl farm)
  | cons target rest ih =>
      obtain ⟨closed', stepped, finished⟩ :=
        (⟨event, target :: rest, closed⟩ : Broadcast).step_cons listeners.onEvent rfl farm
      rw [← finished]
      exact (hands _ _ _ _ stepped).trans (ih _ _)

/-- The thread that renders makes the steps of a publication of its own. -/
theorem movesTo_closing (underway : Broadcast → Farm ε σ Audience → RenderCall ε σ Audience)
    (done : Farm ε σ Audience → RenderCall ε σ Audience)
    (closes : ∀ (telling : Broadcast) farm, (underway telling farm).close listeners =
      match telling.step listeners.onEvent farm with
      | (after, some next) => underway next after
      | (after, none) => done after)
    (telling : Broadcast) (farm : Farm ε σ Audience) :
    MovesTo listeners (underway telling farm) (done (telling.finish listeners.onEvent farm)) := by
  refine movesTo_finish listeners underway done (fun telling farm after next stepped => ?_)
    (fun telling farm after stepped => ?_) telling farm
  · have closed := MovesTo.close listeners (underway telling farm)
    rwa [closes, stepped] at closed
  · have closed := MovesTo.close listeners (underway telling farm)
    rwa [closes, stepped] at closed

/-- The thread that renders tells of the scene. -/
theorem movesTo_opening {call : RenderCall ε σ Audience} {telling : Broadcast}
    (stage : call.stage = .opening telling) :
    MovesTo listeners call (call.setFarm (telling.finish listeners.onEvent call.farm)).deploy := by
  have whole := movesTo_closing listeners
    (fun telling farm => { call.setFarm farm with stage := .opening telling })
    (fun farm => (call.setFarm farm).deploy) (fun _ _ => rfl) telling call.farm
  obtain ⟨began, rendering, _, tellings⟩ := call
  cases stage
  exact whole

/-- The thread that renders tells of the end. -/
theorem movesTo_ending {call : RenderCall ε σ Audience} {summary : RenderSummary}
    {telling : Broadcast} (stage : call.stage = .ending summary telling) :
    MovesTo listeners call
      { call.setFarm (telling.finish listeners.onEvent call.farm) with
        stage := .returned summary } := by
  have whole := movesTo_closing listeners
    (fun telling farm => { call.setFarm farm with stage := .ending summary telling })
    (fun farm => { call.setFarm farm with stage := .returned summary }) (fun _ _ => rfl) telling
    call.farm
  obtain ⟨began, rendering, _, tellings⟩ := call
  cases stage
  exact whole

/-- A driver publishes its line. -/
theorem movesTo_telling {call : RenderCall ε σ Audience} {id : Nat} (telling : Broadcast) :
    MovesTo listeners (call.tell id (some telling))
      { call.tell id none with
        rendering := { call.rendering.conclude id with
          farm := telling.finish listeners.onEvent call.farm } } := by
  have whole := movesTo_finish listeners
    (fun telling farm => (call.setFarm farm).tell id (some telling))
    (fun farm =>
      { call.tell id none with rendering := { call.rendering.conclude id with farm := farm } })
    (fun telling farm after next stepped => ?_) (fun telling farm after stepped => ?_) telling
    call.farm
  · exact whole
  · have told : ((call.setFarm farm).tell id (some telling)).telling id = some telling := by
      simp [tell]
    have driven := MovesTo.drive listeners ((call.setFarm farm).tell id (some telling)) id
    rw [drive_of_hand listeners told stepped] at driven
    simpa [tell, setFarm] using driven
  · have told : ((call.setFarm farm).tell id (some telling)).telling id = some telling := by
      simp [tell]
    have driven := MovesTo.drive listeners ((call.setFarm farm).tell id (some telling)) id
    rw [drive_of_end listeners told stepped] at driven
    simpa [tell, setFarm, Rendering.conclude_setFarm] using driven

/-- A driver makes a step of its rendering, in which it may publish. -/
theorem movesTo_drive (call : RenderCall ε σ Audience) {id : Nat}
    (idle : call.telling id = none) :
    MovesTo listeners call { call with rendering := call.rendering.drive listeners id } := by
  have driven := MovesTo.drive listeners call id
  cases line : call.rendering.line? id with
  | none => simpa only [RenderCall.drive, idle, line] using driven
  | some event =>
      simp only [RenderCall.drive, idle, line] at driven
      have told := driven.trans (movesTo_telling listeners (.start call.farm.bus event))
      have silent : call.tell id none = call := by
        rw [tell, ← idle, Function.update_eq_self]
      rw [silent] at told
      unfold Rendering.line? at line
      split at line
      · next row colors published cursor found there =>
        cases line
        rw [Rendering.drive_publish listeners found there rfl]
        simp only [Rendering.conclude, found] at told
        exact told
      · cases line

/-- Drivers make the steps of a schedule. -/
theorem movesTo_schedule {call : RenderCall ε σ Audience} (idle : ∀ id, call.telling id = none)
    (schedule : List Nat) :
    MovesTo listeners call
      { call with rendering := call.rendering.play listeners (schedule.map .drive) } := by
  induction schedule using List.reverseRecOn with
  | nil => exact .refl listeners call
  | append_singleton schedule id ih =>
      have driven := movesTo_drive listeners
        { call with rendering := call.rendering.play listeners (schedule.map .drive) } (idle id)
      rw [List.map_append, Rendering.play_append]
      exact ih.trans driven

/-- The thread that renders makes a read for its report. -/
theorem movesTo_read (call : RenderCall ε σ Audience) (stage : call.stage = .driving)
    {cursor : RowCursor} (there : call.rendering.cursor? = some cursor)
    (unreported : call.rendering.report? = none) :
    MovesTo listeners call { call with rendering := call.rendering.close cursor } := by
  have closed := MovesTo.close listeners call
  have step : call.rendering.step listeners .close = call.rendering.close cursor := by
    simp only [Rendering.step, there, Option.map_some, Option.getD_some]
  simp only [RenderCall.close, stage, unreported, step] at closed
  simpa only [stage] using closed

/-- The thread that renders makes its report. -/
theorem movesTo_report {call : RenderCall ε σ Audience} (stage : call.stage = .driving)
    (waiting : call.rendering.closing = .waiting)
    (stopped : call.rendering.drivers.all RowDriver.isStopped = true) {cursor : RowCursor}
    (there : call.rendering.cursor? = some cursor) :
    MovesTo listeners call
      { call with rendering := { call.rendering with
          closing := .closed (cursor.cancelled && 0 < cursor.remaining) } } := by
  have first := movesTo_read listeners call stage there (by simp [Rendering.report?, waiting])
  simp only [Rendering.close, waiting, stopped, if_true] at first
  cases flag : cursor.cancelled with
  | false => simpa only [flag, Bool.false_eq_true, if_false, Bool.false_and] using first
  | true =>
      have second := movesTo_read listeners
        { call with rendering := { call.rendering with closing := .reading } } stage there rfl
      have third := movesTo_read listeners
        { call with rendering := { call.rendering with closing := .counting true } } stage there rfl
      simp only [Rendering.close, flag, if_true, Bool.true_and] at first second third ⊢
      rw [RowCursor.remaining, flag]
      exact (first.trans second).trans third

/-- A render in one piece is a play of a call in which nobody else moves. -/
theorem render_is_play {farm : Farm ε σ Audience} (lenient : listeners.MayCancel farm.cursors.size)
    (size : Dimensions) :
    ∃ moves : List (Move ε σ Audience),
      (∀ move ∈ moves, (∃ id, move = .drive id) ∨ move = .close) ∧
        ((start farm size).play listeners moves).stage = .returned (farm.render listeners size).1 ∧
        ((start farm size).play listeners moves).farm = (farm.render listeners size).2 := by
  have stage : (start farm size).stage =
      .opening (.start (farm.beginRender size).2.bus (.sceneLoaded size)) := rfl
  have opened := movesTo_opening listeners stage
  obtain ⟨_, ⟨schedule, rfl⟩, rounds, stopped⟩ := Rendering.rounds_stopped lenient size []
  obtain ⟨p, shows, -⟩ := Rendering.play_sound lenient size (schedule.map .drive)
  obtain ⟨free, waiting⟩ := Rendering.play_drives listeners (Rendering.start listeners farm size) schedule
  have driven : MovesTo listeners (start farm size) ⟨farm.now,
      (Rendering.start listeners farm size).play listeners (schedule.map .drive), .driving,
        fun _ => none⟩ :=
    opened.trans (movesTo_schedule listeners (fun _ => rfl) schedule)
  have whole := Rendering.renderAlong_eq rounds
  rw [Farm.renderAlong_nil] at whole
  have numbered : ((Rendering.start listeners farm size).play listeners
      (schedule.map .drive)).number = farm.cursors.size := Rendering.number_play listeners _ _
  generalize (Rendering.start listeners farm size).play listeners (schedule.map .drive) = after at *
  have cursor : after.farm.cursors[farm.cursors.size]? = some p.cursor := numbered ▸ shows.cursor
  have reported := driven.trans (movesTo_report listeners rfl waiting stopped
    shows.cursor)
  have withdrawn := reported.trans (MovesTo.close listeners _)
  simp only [RenderCall.close, Rendering.report?, free] at withdrawn
  have ended := withdrawn.trans (movesTo_ending listeners rfl)
  obtain ⟨moves, own, last⟩ := ended
  refine ⟨moves, own, ?_, ?_⟩
  · rw [← last, whole, RowDriver.foldl_published, cursor]
  · rw [← last, whole]
    simp only [withdraw, setFarm, RenderCall.farm, numbered]
    exact (Broadcast.publish_eq_finish listeners.onEvent _ _).symm

end RenderFarm.RenderCall
