import RenderFarm.Proofs.RenderCall.Moves
import RenderFarm.Proofs.Rendering.Stirs

/-!
# What a move can do to a call

Every move of a call shows on its progress as a number of stirs (`Runs.step`), provided that listeners
do nothing to the cursor but cancel, and that other threads leave it alone. `Runs` ties the progress to
what the call knows beside it: which drivers are publishing, and what the report is. So what every
stir keeps holds after every play (`Runs.play`).
-/

namespace RenderFarm

namespace Progress

/-- The event with which a driver publishes the row that it has in hand. -/
def line? (p : Progress) (id : Nat) : Option Event :=
  match p.drivers[id]? with
  | some ⟨.publish row colors, _⟩ => some (.lineComputed row p.cursor.size colors)
  | _ => none

theorem exists_of_line? {p : Progress} {id : Nat} {event : Event} (line : p.line? id = some event) :
    ∃ driver row colors, p.drivers[id]? = some driver ∧ driver.phase = .publish row colors ∧
      event = .lineComputed row p.cursor.size colors := by
  unfold line? at line
  split at line
  · next row colors published found =>
    exact ⟨_, row, colors, found, rfl, (Option.some.inj line).symm⟩
  · cases line

theorem ne_publish_of_line? {p : Progress} {id : Nat} (line : p.line? id = none) {driver : RowDriver}
    (found : p.drivers[id]? = some driver) (row : UInt32) (colors : List UInt32) :
    driver.phase ≠ .publish row colors := by
  obtain ⟨phase, published⟩ := driver
  rintro rfl
  simp [line?, found] at line

/-- Drivers that have stopped publish nothing. -/
theorem line?_of_stopped {p : Progress} (stopped : p.drivers.all RowDriver.isStopped = true)
    (id : Nat) : p.line? id = none := by
  rw [Option.eq_none_iff_forall_not_mem]
  intro event line
  obtain ⟨driver, row, colors, found, phase, -⟩ := exists_of_line? line
  have halted := List.all_eq_true.1 stopped driver (List.mem_of_getElem? found)
  simp [RowDriver.isStopped, phase] at halted

theorem line?_of_line? {p q : Progress} {id : Nat} {event : Event} (line : p.line? id = some event)
    (drivers : q.drivers[id]? = p.drivers[id]?) (size : q.cursor.size = p.cursor.size) :
    q.line? id = some event := by
  unfold line? at line ⊢
  rwa [drivers, size]

end Progress

namespace Rendering

variable {ε σ Audience : Type} {rendering : Rendering ε σ Audience} {p : Progress}

theorem Shows.line? (shows : rendering.Shows p) (id : Nat) : rendering.line? id = p.line? id := by
  unfold Rendering.line? Progress.line?
  rw [shows.drivers, shows.cursor]
  split <;> simp_all

theorem Shows.setFarm (shows : rendering.Shows p) {farm : Farm ε σ Audience} {cursor : RowCursor}
    (there : farm.cursors[rendering.number]? = some cursor) :
    Shows { rendering with farm := farm } { p with cursor := cursor } :=
  ⟨there, shows.drivers, shows.cancelling, shows.closing, shows.history⟩

/-- A driver that concludes has published its row. -/
theorem Shows.conclude (shows : rendering.Shows p) {id : Nat} {driver : RowDriver} {row : UInt32}
    {colors : List UInt32} (found : p.drivers[id]? = some driver)
    (phase : driver.phase = .publish row colors) :
    (rendering.conclude id).Shows
      ((p.setDriver id driver.sent).note (.published id row colors)) := by
  rw [← shows.drivers] at found
  simp only [Rendering.conclude, found]
  rw [phase]
  exact ⟨shows.cursor, by simp only [shows.drivers, Progress.note, Progress.setDriver],
    shows.cancelling, shows.closing, by simp only [shows.history]; rfl⟩

variable [Scene σ] [Evaluator ε σ]

/-- Drivers that have stopped do nothing. -/
theorem drive_of_stopped (listeners : Listeners ε σ Audience) (shows : rendering.Shows p)
    (stopped : p.drivers.all RowDriver.isStopped = true) (id : Nat) :
    rendering.drive listeners id = rendering := by
  have cursorAt : rendering.farm.cursors[rendering.number]? = some p.cursor := shows.cursor
  unfold drive
  split
  · rfl
  · next driver found =>
    rw [← shows.drivers] at stopped
    obtain ⟨inside, rfl⟩ := List.getElem?_eq_some_iff.1 found
    have halted : rendering.drivers[id].phase = .stopped := by
      simpa [RowDriver.isStopped] using List.all_eq_true.1 stopped _ (List.getElem_mem inside)
    simp only [Farm.stepDriver, cursorAt, halted, List.set_getElem_self, RowDriver.occurrence?,
      Option.toList_none, List.append_nil]

end Rendering

namespace RenderCall

variable {ε σ Audience : Type}

/-- The report, once it is made. -/
def Stage.summary? : Stage → Option RenderSummary
  | .opening _ | .driving => none
  | .ending summary _ | .returned summary => some summary

/-- A call whose render has come to a progress. -/
structure Runs (size : Dimensions) (call : RenderCall ε σ Audience) (p : Progress) : Prop where
  shows : call.rendering.Shows p
  sound : p.Sound size
  idle : ∀ telling, call.stage = .opening telling →
    p.drivers = [] ∧ p.history = [] ∧ p.closing = .waiting
  told : ∀ id telling, call.telling id = some telling → p.line? id = some telling.event
  reported : ∀ summary ∈ call.stage.summary?, p.closing = .closed summary.cancelled ∧
    summary.rowsComputed = (p.drivers.map RowDriver.published).sum

/-- What another thread does leaves the cursor of a render alone. -/
def Move.Spares (render : Nat) : Move ε σ Audience → Prop
  | .meanwhile change => ∀ farm cursor, farm.cursors[render]? = some cursor →
    (change farm).cursors[render]? = some cursor
  | .drive _ | .cancel | .close => True

theorem start_runs (farm : Farm ε σ Audience) (size : Dimensions) :
    (start farm size).Runs size (.start size 0) where
  shows := ⟨by simp [start, Rendering.cursor?, Farm.beginRender, Progress.start], rfl, rfl, rfl, rfl⟩
  sound := .start size 0
  idle := fun _ _ => ⟨rfl, rfl, rfl⟩
  told := fun _ _ none => by cases none
  reported := fun _ none => by cases none

section Runs

variable {size : Dimensions} {call : RenderCall ε σ Audience} {p : Progress}
  (runs : call.Runs size p)
include runs

/-- Once the report is made, all drivers have stopped. -/
theorem Runs.stopped {summary : RenderSummary} (made : summary ∈ call.stage.summary?) :
    p.drivers.all RowDriver.isStopped = true := by
  refine runs.sound.regular.closed.resolve_left fun waiting => ?_
  have closed := (runs.reported summary made).1
  rw [waiting] at closed
  cases closed

/-- When all drivers have stopped, none is publishing. -/
theorem Runs.telling_of_stopped (stopped : p.drivers.all RowDriver.isStopped = true) (id : Nat) :
    call.telling id = none := by
  rw [Option.eq_none_iff_forall_not_mem]
  intro telling told
  have line := runs.told id telling told
  rw [Progress.line?_of_stopped stopped] at line
  cases line

/-- A change of the farm shows on the cursor only. -/
theorem Runs.setFarm {farm : Farm ε σ Audience} {cursor : RowCursor}
    (there : farm.cursors[call.rendering.number]? = some cursor)
    (left : cursor = p.cursor ∨ cursor = p.cursor.cancel) :
    (call.setFarm farm).Runs size { p with cursor := cursor } ∧
      p.Stirs { p with cursor := cursor } := by
  have stirs : p.Stirs { p with cursor := cursor } := by
    rcases left with rfl | rfl
    · exact .refl
    · exact .single .halt
  have sound := runs.sound.stirs stirs
  exact ⟨⟨runs.shows.setFarm there, sound, runs.idle, fun id telling told =>
    Progress.line?_of_line? (runs.told id telling told) rfl
      (sound.sized.trans runs.sound.sized.symm), runs.reported⟩, stirs⟩

theorem Runs.tell {id : Nat} {telling : Option Broadcast}
    (line : ∀ broadcast ∈ telling, p.line? id = some broadcast.event) :
    (call.tell id telling).Runs size p := by
  refine ⟨runs.shows, runs.sound, runs.idle, fun other broadcast told => ?_, runs.reported⟩
  simp only [RenderCall.tell, Function.update_apply] at told
  split at told
  · next same =>
    subst same
    exact line broadcast told
  · exact runs.told other broadcast told

/-- A driver is done with publishing. -/
theorem Runs.conclude {id : Nat} {telling : Broadcast} (told : call.telling id = some telling) :
    ∃ q, Runs size { call.tell id none with rendering := call.rendering.conclude id } q ∧
      p.Stirs q := by
  obtain ⟨driver, row, colors, found, phase, -⟩ :=
    Progress.exists_of_line? (runs.told id telling told)
  have stirs : p.Stirs _ := .single (.access (.publish found phase))
  refine ⟨_, ⟨runs.shows.conclude found phase, runs.sound.stirs stirs, fun other opening => ?_,
    fun other broadcast still => ?_, fun summary made => ?_⟩, stirs⟩
  · have idle := (runs.idle other opening).1
    simp [idle] at found
  · have different : other ≠ id := by
      rintro rfl
      simp [RenderCall.tell] at still
    simp only [RenderCall.tell, Function.update_of_ne different] at still
    exact Progress.line?_of_line? (runs.told other broadcast still)
      (List.getElem?_set_ne (Ne.symm different)) rfl
  · rw [runs.telling_of_stopped (runs.stopped made) id] at told
    cases told

theorem Runs.setStage {stage : Stage}
    (idle : ∀ telling, stage = .opening telling →
      p.drivers = [] ∧ p.history = [] ∧ p.closing = .waiting)
    (reported : ∀ summary ∈ stage.summary?, p.closing = .closed summary.cancelled ∧
      summary.rowsComputed = (p.drivers.map RowDriver.published).sum) :
    Runs size { call with stage := stage } p :=
  ⟨runs.shows, runs.sound, idle, runs.told, reported⟩

/-- The drivers are put to work. -/
theorem Runs.deploy {telling : Broadcast} (opening : call.stage = .opening telling) :
    ∃ q, call.deploy.Runs size q ∧ p.Stirs q := by
  obtain ⟨idle, fresh, waiting⟩ := runs.idle telling opening
  have stirs : p.Stirs _ := .single (.deploy call.farm.workers.size idle fresh waiting)
  refine ⟨{ p with drivers := List.replicate call.farm.workers.size RowDriver.start },
    ⟨⟨runs.shows.cursor, rfl, runs.shows.cancelling, runs.shows.closing,
    runs.shows.history⟩, runs.sound.stirs stirs, fun _ still => (by cases still),
    fun id broadcast told => ?_, fun _ none => (by cases none)⟩, stirs⟩
  have line := runs.told id broadcast told
  simp [Progress.line?, idle] at line

/-- The render withdraws when its report is made. -/
theorem Runs.withdraw {summary : RenderSummary} (report : summary ∈ call.rendering.report?) :
    (call.withdraw summary).Runs size p := by
  obtain ⟨closed, computed⟩ := Rendering.report?_eq_some report
  rw [runs.shows.closing] at closed
  rw [runs.shows.drivers] at computed
  have cursors : (call.farm.endRender call.rendering.number).cursors = call.farm.cursors := by
    obtain ⟨active, ended⟩ := call.farm.endRender_eq call.rendering.number
    rw [ended]
  refine ⟨⟨?_, runs.shows.drivers, runs.shows.cancelling, runs.shows.closing, runs.shows.history⟩,
    runs.sound, fun _ still => (by cases still), runs.told, fun other made => ?_⟩
  · have cursor := runs.shows.cursor
    simp only [Rendering.cursor?, RenderCall.withdraw, RenderCall.setFarm, cursors] at cursor ⊢
    exact cursor
  · cases made
    exact ⟨closed, computed⟩

/-- A publication goes on, and listeners may cancel. -/
theorem Runs.broadcast {listeners : Listeners ε σ Audience}
    (lenient : listeners.MayCancel call.rendering.number) (telling : Broadcast) :
    ∃ q, (call.setFarm (telling.step listeners.onEvent call.farm).1).Runs size q ∧ p.Stirs q ∧
      ∃ cursor, q = { p with cursor := cursor } := by
  obtain ⟨cursor, there, left⟩ :=
    (lenient.lasting p.cursor).broadcast telling ⟨p.cursor, runs.shows.cursor, .inl rfl⟩
  obtain ⟨after, stirs⟩ := runs.setFarm there left
  exact ⟨_, after, stirs, cursor, rfl⟩

variable [Scene σ] [Evaluator ε σ] {listeners : Listeners ε σ Audience}

/-- A driver that is not publishing takes a step. -/
theorem Runs.drive_rendering (lenient : listeners.MayCancel call.rendering.number) {id : Nat}
    (untold : call.telling id = none) :
    ∃ q, Runs size { call with rendering := call.rendering.drive listeners id } q ∧ p.Stirs q := by
  obtain ⟨q, shown, stirs⟩ := Rendering.drive_stirs lenient runs.shows id
  have sound := runs.sound.stirs stirs
  obtain ⟨-, closing, others⟩ := Rendering.drive_others listeners call.rendering id
  rw [shown.closing, runs.shows.closing] at closing
  rw [shown.drivers, runs.shows.drivers] at others
  refine ⟨q, ⟨shown, sound, fun telling opening => ?_, fun other telling told => ?_,
    fun summary made => ?_⟩, stirs⟩
  · -- There is no driver yet, so nothing happens.
    have idle := runs.idle telling opening
    have same : call.rendering.drive listeners id = call.rendering := by
      simp only [Rendering.drive, runs.shows.drivers, idle.1, List.getElem?_nil]
    rw [same] at shown
    rw [← shown.drivers, ← shown.history, ← shown.closing, runs.shows.drivers,
      runs.shows.history, runs.shows.closing]
    exact idle
  · have different : other ≠ id := by
      rintro rfl
      rw [untold] at told
      cases told
    exact Progress.line?_of_line? (runs.told other telling told) (others other different)
      (sound.sized.trans runs.sound.sized.symm)
  · have drivers : q.drivers = p.drivers := by
      rw [← shown.drivers, Rendering.drive_of_stopped listeners runs.shows (runs.stopped made),
        runs.shows.drivers]
    rw [drivers, closing]
    exact runs.reported summary made

/-- A driver takes a step. -/
theorem Runs.drive (lenient : listeners.MayCancel call.rendering.number) (id : Nat) :
    ∃ q, (call.drive listeners id).Runs size q ∧ p.Stirs q := by
  unfold RenderCall.drive
  cases telling : call.telling id with
  | none =>
      cases line : call.rendering.line? id with
      | none => exact runs.drive_rendering lenient telling
      | some event =>
          refine ⟨p, runs.tell fun broadcast member => ?_, .refl⟩
          cases member
          rw [← runs.shows.line?, line]
          rfl
  | some broadcast =>
      obtain ⟨q, after, stirs, cursor, rfl⟩ := runs.broadcast lenient broadcast
      have line := after.told id broadcast telling
      cases stepped : broadcast.step listeners.onEvent call.farm with
      | mk farm next =>
          rw [stepped] at after
          cases next with
          | some next =>
              simp only [stepped]
              refine ⟨_, after.tell fun other member => ?_, stirs⟩
              cases member
              rw [Broadcast.event_of_step _ stepped]
              exact line
          | none =>
              simp only [stepped]
              obtain ⟨r, concluded, further⟩ := after.conclude telling
              exact ⟨r, concluded, stirs.trans further⟩

/-- The thread that renders takes a step. -/
theorem Runs.close (lenient : listeners.MayCancel call.rendering.number) :
    ∃ q, (call.close listeners).Runs size q ∧ p.Stirs q := by
  unfold RenderCall.close
  cases stage : call.stage with
  | opening telling =>
      obtain ⟨q, after, stirs, cursor, rfl⟩ := runs.broadcast lenient telling
      cases stepped : telling.step listeners.onEvent call.farm with
      | mk farm next =>
          rw [stepped] at after
          cases next with
          | some next =>
              simp only [stepped]
              exact ⟨_, after.setStage (fun _ _ => runs.idle telling stage)
                (fun _ none => by cases none), stirs⟩
          | none =>
              simp only [stepped]
              obtain ⟨r, deployed, further⟩ := after.deploy stage
              exact ⟨r, deployed, stirs.trans further⟩
  | driving =>
      cases report : call.rendering.report? with
      | none =>
          obtain ⟨q, shown, moved⟩ := Rendering.close_shows runs.shows
          have stepped : call.rendering.step listeners .close = call.rendering.close p.cursor := by
            simp only [Rendering.step, runs.shows.cursor, Option.map_some, Option.getD_some]
          have stirs : p.Stirs q := by
            rcases moved with rfl | advance
            · exact .refl
            · exact .single (.access advance)
          rw [← stepped] at shown
          obtain ⟨closing, same⟩ := Rendering.step_close listeners call.rendering
          have sound := runs.sound.stirs stirs
          refine ⟨q, ⟨shown, sound, fun _ opening => (by cases opening), fun id telling told => ?_,
            fun _ made => (by cases made)⟩, stirs⟩
          refine Progress.line?_of_line? (runs.told id telling told) ?_
            (sound.sized.trans runs.sound.sized.symm)
          rw [← shown.drivers, same, runs.shows.drivers]
      | some summary =>
          cases call.rendering.cancelling with
          | none => exact ⟨p, runs.withdraw report, .refl⟩
          | some cancelling => exact ⟨p, runs, .refl⟩
  | ending summary telling =>
      obtain ⟨q, after, stirs, cursor, rfl⟩ := runs.broadcast lenient telling
      have made := runs.reported summary (by rw [stage]; rfl)
      cases stepped : telling.step listeners.onEvent call.farm with
      | mk farm next =>
          rw [stepped] at after
          cases next with
          | some next | none =>
              simp only [stepped]
              refine ⟨_, after.setStage (fun _ opening => by cases opening) ?_, stirs⟩
              intro other same
              cases same
              exact made
  | returned summary => exact ⟨p, runs, .refl⟩

/-- A cancel makes its next access. -/
theorem Runs.cancel :
    ∃ q, Runs size { call with rendering := call.rendering.step listeners .cancel } q ∧
      p.Stirs q := by
  obtain ⟨q, shown, advance⟩ := Rendering.cancel_shows runs.shows
  have stepped : call.rendering.step listeners .cancel = call.rendering.cancel p.cursor := by
    simp only [Rendering.step, runs.shows.cursor, Option.map_some, Option.getD_some]
  rw [← stepped] at shown
  obtain ⟨farm, cancelling, same⟩ := Rendering.step_cancel listeners call.rendering
  have drivers : q.drivers = p.drivers := by rw [← shown.drivers, same, runs.shows.drivers]
  have closing : q.closing = p.closing := by rw [← shown.closing, same, runs.shows.closing]
  have history : q.history = p.history := by rw [← shown.history, same, runs.shows.history]
  have stirs : p.Stirs q := .single (.access advance)
  have sound := runs.sound.stirs stirs
  refine ⟨q, ⟨shown, sound, ?_, fun id telling told => ?_, ?_⟩, stirs⟩
  · rw [drivers, closing, history]
    exact runs.idle
  · exact Progress.line?_of_line? (runs.told id telling told) (by rw [drivers])
      (sound.sized.trans runs.sound.sized.symm)
  · rw [drivers, closing]
    exact runs.reported

/-- A move is a number of stirs. -/
theorem Runs.step (lenient : listeners.MayCancel call.rendering.number)
    {move : Move ε σ Audience} (spares : move.Spares call.rendering.number) :
    ∃ q, (call.step listeners move).Runs size q ∧ p.Stirs q := by
  cases move with
  | drive id => exact runs.drive lenient id
  | cancel =>
      unfold RenderCall.step
      dsimp only
      split
      · exact runs.cancel
      · exact ⟨p, runs, .refl⟩
  | close => exact runs.close lenient
  | meanwhile change =>
      obtain ⟨after, stirs⟩ := runs.setFarm (spares call.farm _ runs.shows.cursor) (.inl rfl)
      exact ⟨_, after, stirs⟩

end Runs

variable [Scene σ] [Evaluator ε σ] {listeners : Listeners ε σ Audience}

/-- A render keeps its number. -/
theorem number_step (listeners : Listeners ε σ Audience) (call : RenderCall ε σ Audience)
    (move : Move ε σ Audience) :
    (call.step listeners move).rendering.number = call.rendering.number := by
  cases move with
  | drive id =>
      simp only [step, drive]
      split
      · split
        · rfl
        · simp only [Rendering.conclude]
          split <;> rfl
      · split
        · rfl
        · exact Rendering.number_step listeners call.rendering (.drive id)
  | cancel =>
      simp only [step]
      split
      · exact Rendering.number_step listeners call.rendering .cancel
      · rfl
  | close =>
      simp only [step, close]
      split
      · split <;> rfl
      · split
        · exact Rendering.number_step listeners call.rendering .close
        · rfl
        · rfl
      · split <;> rfl
      · rfl
  | meanwhile change => rfl

theorem number_play (listeners : Listeners ε σ Audience) (call : RenderCall ε σ Audience)
    (moves : List (Move ε σ Audience)) :
    (call.play listeners moves).rendering.number = call.rendering.number := by
  induction moves generalizing call with
  | nil => rfl
  | cons move rest ih => exact (ih _).trans (number_step listeners call move)

/-- A play is a number of stirs. -/
theorem Runs.play {size : Dimensions} {call : RenderCall ε σ Audience} {p : Progress}
    (runs : call.Runs size p) (lenient : listeners.MayCancel call.rendering.number)
    {moves : List (Move ε σ Audience)}
    (spares : ∀ move ∈ moves, move.Spares call.rendering.number) :
    ∃ q, (call.play listeners moves).Runs size q ∧ p.Stirs q := by
  induction moves generalizing call p with
  | nil => exact ⟨p, runs, .refl⟩
  | cons move rest ih =>
      obtain ⟨q, after, stirs⟩ := runs.step lenient (spares move (.head _))
      rw [← number_step listeners call move] at lenient spares
      obtain ⟨r, last, further⟩ := ih after lenient fun other member => spares other (.tail _ member)
      exact ⟨r, last, stirs.trans further⟩

end RenderCall

end RenderFarm
