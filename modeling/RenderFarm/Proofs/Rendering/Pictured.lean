import Mathlib.Algebra.GroupWithZero.Nat
import RenderFarm.Proofs.Canvas.Listening
import RenderFarm.Proofs.Farm.Evaluating
import RenderFarm.Proofs.Rendering.Hearing
import RenderFarm.Proofs.Rendering.Turns

/-!
# A render on a canvas

Workers that agree on a scene draw the same rows. `Pictured` is what such a farm keeps while its
drivers move in any order: the lines on record are rows of the scene, and nothing was lost or skipped.
When all drivers have stopped, the lines are all rows of the scene, each once. A canvas takes in the
lines on record and does not show their order, so that a render along any schedule leaves one and the
same canvas (`renderAlong_pictured`).
-/

namespace RenderFarm

open Occurrence

variable {ε σ Audience : Type}

/-- A row was drawn in its colors, and not skipped or lost. -/
def Occurrence.DrawnIn (colors : UInt32 → List UInt32) : Occurrence → Prop
  | claimed .. => True
  | published _ row words => words = colors row
  | skipped .. | lost .. => False

namespace Rendering

/-- A render in which the drivers of workers that agree have moved. -/
structure Pictured (engine : ε) (scene : σ) (colors : UInt32 → List UInt32)
    (rendering : Rendering ε σ Audience) : Prop where
  manned : rendering.farm.workers.size = rendering.drivers.length
  agrees : rendering.farm.Agrees engine (some scene)
  noted : ∀ occurrence ∈ rendering.history, occurrence.DrawnIn colors
  ready : ∀ driver ∈ rendering.drivers, ∀ row words, driver.phase = .publish row words →
    words = colors row

variable {engine : ε} {scene : σ} {colors : UInt32 → List UInt32}

section Pictured

variable {rendering : Rendering ε σ Audience}
  (pictured : rendering.Pictured engine scene colors)
include pictured

/-- What a step of a driver has to do with the workers and with the row in hand. -/
theorem Pictured.drive_of_step (id : Nat) {next : RowDriver} {farm : Farm ε σ Audience}
    (occurrences : List Occurrence) (size : farm.workers.size = rendering.farm.workers.size)
    (agrees : farm.Agrees engine (some scene))
    (noted : ∀ occurrence ∈ occurrences, occurrence.DrawnIn colors)
    (ready : ∀ row words, next.phase = .publish row words → words = colors row) :
    Pictured engine scene colors
      { rendering with
        farm := farm
        drivers := rendering.drivers.set id next
        history := rendering.history ++ occurrences } where
  manned := by simpa using size.trans pictured.manned
  agrees := agrees
  noted := by
    intro occurrence member
    rcases List.mem_append.1 member with before | now
    · exact pictured.noted occurrence before
    · exact noted occurrence now
  ready := by
    intro other member
    rcases List.mem_or_eq_of_mem_set member with before | rfl
    · exact pictured.ready other before
    · exact ready

theorem Pictured.unlost (id : Nat) (row : UInt32) : .lost id row ∉ rendering.history :=
  fun member => pictured.noted _ member

theorem Pictured.unskipped (id : Nat) (row : UInt32) : .skipped id row ∉ rendering.history :=
  fun member => pictured.noted _ member

/-- What a canvas makes of the scene and of the lines on record. -/
theorem Pictured.foldl_apply (size : Dimensions) (canvas : Canvas) :
    (.sceneLoaded size :: (drawn rendering.history).map (Event.ofLine size)).foldl Canvas.apply canvas =
      (Canvas.reset size).paintRows colors (lines rendering.history) := by
  have own : ∀ line ∈ drawn rendering.history, colors line.1 = line.2 := by
    intro line member
    obtain ⟨id, published⟩ := mem_drawn.1 member
    exact (pictured.noted _ published : line.2 = colors line.1).symm
  rw [← map_fst_drawn]
  exact Canvas.foldl_apply_lines own rfl

end Pictured

variable [Scene σ]

/-- When all drivers have stopped, the lines are the rows of the scene, in some order. -/
theorem Pictured.lines_perm {rendering : Rendering ε σ Audience} {p : Progress}
    (pictured : rendering.Pictured engine scene colors) (shows : rendering.Shows p)
    (lawful : p.Lawful (Scene.size scene).height.toNat)
    (uncancelled : p.cancelling = none ∧ p.cursor.cancelled = false)
    (driven : 0 < rendering.drivers.length)
    (stopped : rendering.drivers.all RowDriver.isStopped = true) :
    (lines rendering.history).Perm (Canvas.rowsBelow (Scene.size scene).height) := by
  have unlost := pictured.unlost
  have unskipped := pictured.unskipped
  rw [shows.history] at unlost unskipped ⊢
  rw [shows.drivers] at driven stopped
  rw [List.perm_ext_iff_of_nodup lawful.nodup_lines (Canvas.nodup_rowsBelow _)]
  intro row
  rw [Canvas.mem_rowsBelow, UInt32.lt_iff_toNat_lt]
  constructor
  · intro member
    obtain ⟨id, words, published⟩ := mem_lines.1 member
    have claimed := mem_claims.2 ⟨id, lawful.claimed_of_published published⟩
    exact (lawful.banded.mem_claims.1 claimed).2
  · intro inside
    have once := lawful.count_lines uncancelled unlost unskipped driven stopped inside
    exact List.count_pos_iff.1 (by omega)

variable [Evaluator ε σ] {listeners : Listeners ε σ Audience}
  (spare : Farm.Unheard listeners fun farm => farm.workers)
include spare

omit [Evaluator ε σ] in
/-- A render that has told its size has nothing on record. -/
theorem start_pictured {farm : Farm ε σ Audience} (agrees : farm.Agrees engine (some scene)) :
    (start listeners farm (Scene.size scene)).Pictured engine scene colors where
  manned := List.length_replicate.symm
  agrees := by
    intro id worker there
    have workers : (start listeners farm (Scene.size scene)).farm.workers = farm.workers :=
      spare.publish _ _
    rw [workers] at there
    exact agrees id worker there
  noted := List.forall_mem_nil _
  ready := by
    intro driver member row words phase
    obtain ⟨-, rfl⟩ := List.mem_replicate.1 member
    cases phase

/-- A step of a driver keeps the picture. -/
theorem Pictured.drive {rendering : Rendering ε σ Audience} {p : Progress}
    (pictured : rendering.Pictured engine scene colors) (shows : rendering.Shows p)
    (lawful : p.Lawful (Scene.size scene).height.toNat)
    (drawRow : ∀ row, row < (Scene.size scene).height →
      Scene.drawRow scene row = some (colors row, scene)) (id : Nat) :
    (rendering.drive listeners id).Pictured engine scene colors := by
  have cursorAt : rendering.farm.cursors[rendering.number]? = some p.cursor := shows.cursor
  cases found : rendering.drivers[id]? with
  | none => simpa only [Rendering.drive, found] using pictured
  | some driver =>
      simp only [Rendering.drive, found]
      cases phase : driver.phase with
      | test =>
          simp only [Farm.stepDriver, cursorAt, phase]
          refine pictured.drive_of_step id _ rfl pictured.agrees (by simp) fun row words => ?_
          simp only [RowDriver.tested]
          split <;> simp
      | claim =>
          simp only [Farm.stepDriver, cursorAt, phase, Farm.modifyCursor]
          refine pictured.drive_of_step id _ rfl pictured.agrees ?_ ?_ <;>
            cases p.cursor.claim.1 <;> simp [RowDriver.claimed, RowDriver.occurrence?, DrawnIn]
      | await row =>
          have inside : row.toNat < (Scene.size scene).height.toNat :=
            lawful.lt_of_await (shows.drivers ▸ found) phase
          have inside := UInt32.lt_iff_toNat_lt.2 inside
          obtain ⟨driven, -⟩ := List.getElem?_eq_some_iff.1 found
          have there := Array.getElem?_eq_getElem (pictured.manned ▸ driven)
          obtain ⟨answer, last, workers, rests⟩ := Farm.answerRow_rests spare there
            (pictured.agrees id _ there) inside (drawRow row inside)
          simp only [Farm.stepDriver, cursorAt, phase, answer]
          refine pictured.drive_of_step id _ (by rw [workers, Array.size_setIfInBounds]) ?_
            (by simp [RowDriver.answered, RowDriver.occurrence?]) ?_
          · intro other worker at_
            rw [workers, Array.getElem?_setIfInBounds] at at_
            split at at_
            · split at at_
              · cases at_
                exact rests
              · cases at_
            · exact pictured.agrees other worker at_
          · intro row' words' told
            simp only [RowDriver.answered, RowDriver.Phase.publish.injEq] at told
            obtain ⟨rfl, rfl⟩ := told
            rfl
      | publish row words =>
          have same := pictured.ready driver (List.mem_of_getElem? found) row words phase
          simp only [Farm.stepDriver, cursorAt, phase]
          refine pictured.drive_of_step id _ (congrArg Array.size (spare.publish _ _)) ?_ ?_ ?_
          · intro other worker at_
            rw [spare.publish] at at_
            exact pictured.agrees other worker at_
          · simpa [RowDriver.sent, RowDriver.occurrence?, DrawnIn] using same
          · simp [RowDriver.sent]
      | stopped =>
          simp only [Farm.stepDriver, cursorAt, phase]
          exact pictured.drive_of_step id _ rfl pictured.agrees (by simp [RowDriver.occurrence?])
            (by simp [phase])

/-- Drivers that move in any order keep the picture. -/
theorem play_pictured {farm : Farm ε σ Audience} (still : listeners.SpareCursor farm.cursors.size)
    (agrees : farm.Agrees engine (some scene))
    (drawRow : ∀ row, row < (Scene.size scene).height →
      Scene.drawRow scene row = some (colors row, scene)) (schedule : List Nat) :
    ((start listeners farm (Scene.size scene)).play listeners (schedule.map .drive)).Pictured engine
      scene colors := by
  induction schedule using List.reverseRecOn with
  | nil => exact start_pictured spare agrees
  | append_singleton schedule id ih =>
      obtain ⟨p, shows, lawful, -⟩ := play_lawful still (Scene.size scene) (schedule.map .drive)
      rw [List.map_append, play_append]
      exact ih.drive spare shows lawful drawRow id

omit spare in
/-- Drivers take no time where listeners only take notes. -/
theorem now_play (takesNotes : listeners.TakesNotes) (farm : Farm ε σ Audience) (size : Dimensions)
    (moves : List (Move ε σ)) : ((start listeners farm size).play listeners moves).farm.now = farm.now :=
  have clock := takesNotes.spareClock
  play_keeps ((clock.lasting farm.now).keeps fun _ _ _ same => same)
    (fun event _ same => (clock.publish event _).trans same) (fun _ _ same => same) moves
    (clock.publish _ _)

end Rendering

namespace Farm

variable [Scene σ] [Evaluator ε σ]

/-- A render of a scene on which the workers agree comes to the same along every schedule. -/
theorem renderAlong_pictured {listeners : Listeners ε σ Audience} {id : SubscriptionId}
    {canvas : Audience → Canvas} (exhibits : listeners.Exhibits id canvas)
    (takesNotes : listeners.TakesNotes) {engine : ε} {scene : σ} {colors : UInt32 → List UInt32}
    {farm : Farm ε σ Audience} (manned : 0 < farm.workers.size)
    (agrees : farm.Agrees engine (some scene))
    (attached : farm.bus.Lists ⟨id, .render, .callback⟩)
    (drawRow : ∀ row, row < (Scene.size scene).height →
      Scene.drawRow scene row = some (colors row, scene)) (schedule : List Nat) :
    let after := (farm.renderAlong listeners schedule (Scene.size scene)).2
    (farm.renderAlong listeners schedule (Scene.size scene)).1 =
        ⟨(Scene.size scene).height.toNat, false⟩ ∧
      after.workers.size = farm.workers.size ∧ after.Agrees engine (some scene) ∧
      after.bus.Lists ⟨id, .render, .callback⟩ ∧
      canvas after.audience = Canvas.ofScene colors (Scene.size scene) 0 := by
  intro after
  have spare := takesNotes.spareCursor farm.cursors.size
  have retains := takesNotes.retains ⟨id, .render, .callback⟩
  have wants : EventKinds.render.contains .render = true := by decide
  obtain ⟨last, ⟨moves, played⟩, rounds, stopped⟩ :=
    Rendering.rounds_stopped spare.mayCancel (Scene.size scene) schedule
  obtain ⟨p, shows, lawful, -⟩ := Rendering.play_lawful spare (Scene.size scene) (moves.map .drive)
  have pictured := Rendering.play_pictured takesNotes.spareWorkers spare agrees drawRow moves
  have uncancelled := Rendering.play_uncancelled spare (Scene.size scene)
    (by simp [Move.isCancel]) shows
  obtain ⟨lists, shown⟩ := Rendering.play_told exhibits.feeds retains wants spare.mayCancel
    (Scene.size scene) attached (moves.map .drive)
  have now := Rendering.now_play takesNotes farm (Scene.size scene) (moves.map .drive)
  have number := Rendering.number_play listeners
    (Rendering.start listeners farm (Scene.size scene)) (moves.map .drive)
  have drivers := Rendering.length_drivers_play listeners
    (Rendering.start listeners farm (Scene.size scene)) (moves.map .drive)
  rw [pictured.foldl_apply] at shown
  rw [← played] at shows pictured lists shown now number drivers
  replace number : last.number = farm.cursors.size := number
  replace drivers : last.drivers.length = farm.workers.size :=
    drivers.trans (List.length_replicate.trans (congrArg Array.size
      (takesNotes.spareWorkers.publish _ _)))
  have cursor : last.farm.cursors[farm.cursors.size]? = some p.cursor := number ▸ shows.cursor
  have perm := pictured.lines_perm shows lawful uncancelled (drivers ▸ manned) stopped
  have summary : last.drivers.foldl (fun total driver => total + driver.published) 0 =
      (Scene.size scene).height.toNat := by
    have counted : (p.drivers.map RowDriver.published).sum = (lines p.history).length :=
      lawful.counted
    rw [RowDriver.foldl_published, shows.drivers, counted, ← shows.history, perm.length_eq,
      Canvas.rowsBelow, List.length_map, List.length_range]
  obtain ⟨active, ended⟩ := last.farm.endRender_eq farm.cursors.size
  simp only [after, Rendering.renderAlong_eq rounds, summary, cursor, uncancelled.2, Bool.false_and,
    ended]
  have placed : { last.farm with active := active }.bus.Lists ⟨id, .render, .callback⟩ := lists
  have same := takesNotes.spareWorkers.publish (.sceneRendered ((last.farm.now - farm.now) * tick))
    { last.farm with active := active }
  have picked := Event.isOfRender_sceneRendered ((last.farm.now - farm.now) * tick)
  refine ⟨trivial, ?_, ?_, retains.publish _ placed, ?_⟩
  · rw [same]
    exact pictured.manned.trans drivers
  · intro other worker there
    rw [same] at there
    exact pictured.agrees other worker there
  · refine (exhibits.feeds.publish retains _ picked (EventKinds.has_of_contains wants picked)
      placed).trans ?_
    rw [now, Nat.sub_self, Nat.zero_mul, shown, Canvas.paintRows_perm colors _ perm]
    rfl

end Farm

end RenderFarm
