import RenderFarm.Proofs.Rendering.Stirs

/-!
# Turns are moves

`Farm.rounds` moves a whole driver at a time; `Farm.follow` moves the drivers in any order that a
schedule names, a step at a time. Both make moves of the rendering they start from (`follow_play`,
`rounds_driven`). How far a driver has come is its `position`, four for each row that it is done
with: every round takes a driver that has not stopped past the next multiple of four, so that one
round more than there are rows stops them all (`rounds_stopped`).
-/

namespace RenderFarm

open Occurrence

variable {ε σ Audience : Type} [Scene σ] [Evaluator ε σ] {listeners : Listeners ε σ Audience}

/-- Where a phase stands in a driver's cycle. -/
def RowDriver.Phase.index : RowDriver.Phase → Nat
  | .test | .stopped => 0
  | .claim => 1
  | .await _ => 2
  | .publish .. => 3

/-- The drivers' steps in the order of a schedule. -/
def Farm.follow (listeners : Listeners ε σ Audience) (render : Nat) :
    List Nat → List RowDriver → Farm ε σ Audience → List RowDriver × Farm ε σ Audience
  | [], drivers, farm => (drivers, farm)
  | id :: rest, drivers, farm =>
    match drivers[id]? with
    | none => follow listeners render rest drivers farm
    | some driver =>
      let (next, farm) := stepDriver listeners render id driver farm
      follow listeners render rest (drivers.set id next) farm

/-- A render whose drivers first move as scheduled, and then take turns. -/
def Farm.renderAlong (listeners : Listeners ε σ Audience) (schedule : List Nat)
    (farm : Farm ε σ Audience) (size : Dimensions) : RenderSummary × Farm ε σ Audience :=
  let began := farm.now
  let (render, farm) := farm.beginRender size
  let farm := farm.publish listeners (.sceneLoaded size)
  let drivers := List.replicate farm.workers.size RowDriver.start
  let (drivers, farm) := follow listeners render schedule drivers farm
  let (drivers, farm) := rounds listeners render (size.height.toNat + 1) drivers farm
  let cancelled := match farm.cursors[render]? with
    | some cursor => cursor.cancelled && 0 < cursor.remaining
    | none => false
  let farm := farm.endRender render
  let farm := farm.publish listeners (.sceneRendered ((farm.now - began) * tick))
  (⟨drivers.foldl (fun total driver => total + driver.published) 0, cancelled⟩, farm)

/-- Without a schedule the drivers take turns from the start. -/
theorem Farm.renderAlong_nil (farm : Farm ε σ Audience) (size : Dimensions) :
    farm.renderAlong listeners [] size = farm.render listeners size :=
  rfl

namespace Rendering

variable (listeners) in
/-- A step of a driver, seen from the rendering. -/
theorem drive_eq {rendering : Rendering ε σ Audience} {id : Nat} {driver : RowDriver}
    (found : rendering.drivers[id]? = some driver) :
    (rendering.drive listeners id).farm =
        (Farm.stepDriver listeners rendering.number id driver rendering.farm).2 ∧
      (rendering.drive listeners id).drivers = rendering.drivers.set id
        (Farm.stepDriver listeners rendering.number id driver rendering.farm).1 := by
  simp only [drive, found]
  exact ⟨trivial, trivial⟩

variable (listeners) in
/-- A schedule is a play. -/
theorem follow_play (schedule : List Nat) (rendering : Rendering ε σ Audience) :
    Farm.follow listeners rendering.number schedule rendering.drivers rendering.farm =
      ((rendering.play listeners (schedule.map .drive)).drivers,
        (rendering.play listeners (schedule.map .drive)).farm) := by
  induction schedule generalizing rendering with
  | nil => rfl
  | cons id rest ih =>
      have later := ih (rendering.drive listeners id)
      have number : (rendering.drive listeners id).number = rendering.number :=
        number_step listeners rendering (.drive id)
      rw [number] at later
      cases found : rendering.drivers[id]? with
      | none =>
          have same : rendering.drive listeners id = rendering := by simp only [drive, found]
          rw [same] at later
          simp only [Farm.follow, found, later]
          simp only [List.map_cons, play, List.foldl_cons, step, same]
      | some driver =>
          obtain ⟨farm, drivers⟩ := drive_eq listeners found
          rw [farm, drivers] at later
          simp only [Farm.follow, found]
          exact later

theorem length_drivers_step (listeners : Listeners ε σ Audience) (rendering : Rendering ε σ Audience)
    (move : Move ε σ) :
    (rendering.step listeners move).drivers.length = rendering.drivers.length := by
  cases move with
  | drive id =>
      simp only [step, drive]
      split <;> simp
  | cancel =>
      obtain ⟨farm, cancelling, stepped⟩ := step_cancel listeners rendering
      rw [stepped]
  | close =>
      obtain ⟨closing, stepped⟩ := step_close listeners rendering
      rw [stepped]
  | alter id worker => rfl

theorem length_drivers_play (listeners : Listeners ε σ Audience) (rendering : Rendering ε σ Audience)
    (moves : List (Move ε σ)) :
    (rendering.play listeners moves).drivers.length = rendering.drivers.length := by
  induction moves generalizing rendering with
  | nil => rfl
  | cons move rest ih => exact (ih _).trans (length_drivers_step listeners rendering move)

/-- What is left of a render along a schedule when its rounds are over. -/
theorem renderAlong_eq {farm : Farm ε σ Audience} {size : Dimensions} {schedule : List Nat}
    {after : Rendering ε σ Audience}
    (rounds :
      let scheduled := (start listeners farm size).play listeners (schedule.map .drive)
      Farm.rounds listeners scheduled.number (size.height.toNat + 1) scheduled.drivers
        scheduled.farm = (after.drivers, after.farm)) :
    farm.renderAlong listeners schedule size =
      let ended := after.farm.endRender farm.cursors.size
      (⟨after.drivers.foldl (fun total driver => total + driver.published) 0,
          match after.farm.cursors[farm.cursors.size]? with
          | some cursor => cursor.cancelled && 0 < cursor.remaining
          | none => false⟩,
        ended.publish listeners (.sceneRendered ((ended.now - farm.now) * Farm.tick))) := by
  have followed := follow_play listeners schedule (start listeners farm size)
  dsimp only at rounds
  rw [number_play] at rounds
  simp only [start] at followed rounds
  simp only [Farm.renderAlong]
  rw [followed]
  simp only [rounds]
  rfl

/-! ## How far a driver has come -/

def position (rendering : Rendering ε σ Audience) (id : Nat) : Nat :=
  4 * (settled (byDriver id rendering.history)).length +
    (rendering.drivers[id]?.map fun driver => driver.phase.index).getD 0

/-- The driver of worker `id` has stopped or has come as far as `goal`. -/
def Reaches (rendering : Rendering ε σ Audience) (id goal : Nat) : Prop :=
  ∃ driver, rendering.drivers[id]? = some driver ∧
    (driver.phase = .stopped ∨ goal ≤ rendering.position id)

variable (listeners) in
/-- A step takes a driver on, unless it stops. -/
theorem index_stepDriver (render id : Nat) (driver : RowDriver) (farm : Farm ε σ Audience) :
    let next := (Farm.stepDriver listeners render id driver farm).1
    next.phase = .stopped ∨ driver.phase ≠ .stopped ∧ driver.phase.index + 1 ≤
      4 * (settled (RowDriver.occurrence? id driver.phase next.phase).toList).length +
        next.phase.index := by
  intro next
  cases there : farm.cursors[render]? with
  | none =>
      left
      simp only [next, Farm.stepDriver, there]
  | some cursor =>
      cases phase : driver.phase with
      | test =>
          simp only [next, Farm.stepDriver, there, phase, RowDriver.tested]
          cases cursor.cancelled <;> simp [RowDriver.Phase.index]
      | claim =>
          simp only [next, Farm.stepDriver, there, phase]
          cases cursor.claim.1 <;> simp [RowDriver.claimed, RowDriver.Phase.index]
      | await row =>
          simp only [next, Farm.stepDriver, there, phase]
          cases (farm.answerRow listeners id row).1 <;>
            simp [RowDriver.answered, RowDriver.Phase.index, RowDriver.occurrence?, settled,
              settled?]
      | publish row colors =>
          simp [next, Farm.stepDriver, there, phase, RowDriver.sent, RowDriver.Phase.index,
            RowDriver.occurrence?, settled, settled?]
      | stopped =>
          left
          simp only [next, Farm.stepDriver, there, phase]

theorem driver_of_occurrence? {id : Nat} {before after : RowDriver.Phase}
    {occurrence : Occurrence} (noted : RowDriver.occurrence? id before after = some occurrence) :
    occurrence.driver = id := by
  unfold RowDriver.occurrence? at noted
  split at noted <;> cases noted <;> rfl

theorem history_drive {rendering : Rendering ε σ Audience} {id : Nat} {driver : RowDriver}
    (found : rendering.drivers[id]? = some driver) :
    (rendering.drive listeners id).history = rendering.history ++
      (RowDriver.occurrence? id driver.phase
        (Farm.stepDriver listeners rendering.number id driver rendering.farm).1.phase).toList := by
  simp only [drive, found]

theorem Reaches.drive_self {rendering : Rendering ε σ Audience} {id goal : Nat}
    (reaches : rendering.Reaches id goal) : (rendering.drive listeners id).Reaches id (goal + 1) := by
  obtain ⟨driver, found, come⟩ := reaches
  obtain ⟨inside, -⟩ := List.getElem?_eq_some_iff.1 found
  have after : (rendering.drive listeners id).drivers[id]? =
      some (Farm.stepDriver listeners rendering.number id driver rendering.farm).1 := by
    rw [(drive_eq listeners found).2, List.getElem?_set_self inside]
  refine ⟨_, after, ?_⟩
  rcases index_stepDriver listeners rendering.number id driver rendering.farm with
    stopped | ⟨moving, further⟩
  · exact .inl stopped
  right
  have come := come.resolve_left moving
  have own : byDriver id (RowDriver.occurrence? id driver.phase
      (Farm.stepDriver listeners rendering.number id driver rendering.farm).1.phase).toList =
        (RowDriver.occurrence? id driver.phase
          (Farm.stepDriver listeners rendering.number id driver rendering.farm).1.phase).toList := by
    simp only [byDriver, List.filter_eq_self, beq_iff_eq]
    exact fun occurrence member => driver_of_occurrence? (Option.mem_toList.1 member)
  simp only [position, found, Option.map_some, Option.getD_some] at come
  simp only [position, after, history_drive found, byDriver_append, own, settled_append,
    List.length_append, Option.map_some, Option.getD_some]
  omega

theorem Reaches.drive_of_ne {rendering : Rendering ε σ Audience} {id other goal : Nat}
    (different : other ≠ id) (reaches : rendering.Reaches id goal) :
    (rendering.drive listeners other).Reaches id goal := by
  obtain ⟨driver, found, come⟩ := reaches
  cases acting : rendering.drivers[other]? with
  | none =>
      have same : rendering.drive listeners other = rendering := by simp only [drive, acting]
      rw [same]
      exact ⟨driver, found, come⟩
  | some actor =>
      have after : (rendering.drive listeners other).drivers[id]? = some driver := by
        rw [(drive_eq listeners acting).2, List.getElem?_set_ne different, found]
      have nothing : byDriver id (RowDriver.occurrence? other actor.phase
          (Farm.stepDriver listeners rendering.number other actor rendering.farm).1.phase).toList =
            [] := by
        simp only [byDriver, List.filter_eq_nil_iff, beq_iff_eq]
        intro occurrence member
        rwa [driver_of_occurrence? (Option.mem_toList.1 member)]
      refine ⟨driver, after, come.imp_right fun come => ?_⟩
      simp only [position, found, Option.map_some, Option.getD_some] at come
      simpa only [position, after, history_drive acting, byDriver_append, nothing,
        List.append_nil, Option.map_some, Option.getD_some] using come

/-! ## Turns and rounds -/

/-- A rendering after any number of steps of its drivers. -/
def Driven (listeners : Listeners ε σ Audience) (before after : Rendering ε σ Audience) : Prop :=
  ∃ schedule : List Nat, after = before.play listeners (schedule.map .drive)

theorem Driven.refl (rendering : Rendering ε σ Audience) : Driven listeners rendering rendering :=
  ⟨[], rfl⟩

theorem Driven.trans {first second third : Rendering ε σ Audience}
    (one : Driven listeners first second) (other : Driven listeners second third) :
    Driven listeners first third := by
  obtain ⟨before, rfl⟩ := one
  obtain ⟨after, rfl⟩ := other
  exact ⟨before ++ after, by rw [List.map_append, play_append]⟩

theorem Driven.number {before after : Rendering ε σ Audience}
    (driven : Driven listeners before after) : after.number = before.number := by
  obtain ⟨schedule, rfl⟩ := driven
  exact number_play listeners before _

/-- A rendering in which so far only the driver of worker `id` has moved. -/
structure Turning (listeners : Listeners ε σ Audience) (before : Rendering ε σ Audience) (id : Nat)
    (driver : RowDriver) (farm : Farm ε σ Audience) (after : Rendering ε σ Audience) : Prop where
  driven : Driven listeners before after
  farm : after.farm = farm
  drivers : after.drivers = before.drivers.set id driver
  others : ∀ other goal, other ≠ id → before.Reaches other goal → after.Reaches other goal

variable (listeners) in
theorem Turning.start {before : Rendering ε σ Audience} {id : Nat} {driver : RowDriver}
    (found : before.drivers[id]? = some driver) :
    Turning listeners before id driver before.farm before := by
  obtain ⟨inside, rfl⟩ := List.getElem?_eq_some_iff.1 found
  exact ⟨.refl before, rfl, (List.set_getElem_self inside).symm, fun _ _ _ come => come⟩

theorem Turning.drive {before after : Rendering ε σ Audience} {id : Nat} {driver : RowDriver}
    {farm : Farm ε σ Audience} (turning : Turning listeners before id driver farm after)
    (inside : id < before.drivers.length) :
    Turning listeners before id (Farm.stepDriver listeners before.number id driver farm).1
      (Farm.stepDriver listeners before.number id driver farm).2 (after.drive listeners id) := by
  have found : after.drivers[id]? = some driver := by
    rw [turning.drivers, List.getElem?_set_self inside]
  obtain ⟨farms, drivers⟩ := drive_eq listeners found
  rw [turning.farm, turning.driven.number] at farms drivers
  refine ⟨turning.driven.trans ⟨[id], rfl⟩, farms, ?_, ?_⟩
  · rw [drivers, turning.drivers, List.set_set]
  · exact fun other goal different come =>
      (turning.others other goal different come).drive_of_ne (Ne.symm different)

variable (listeners) in
/-- A driver's turn is three or four of its steps, and takes it to the next multiple of four. -/
theorem turn_driven {before : Rendering ε σ Audience} {id : Nat} {driver : RowDriver}
    (found : before.drivers[id]? = some driver) :
    ∃ after, Turning listeners before id
        (Farm.turn listeners before.number id driver before.farm).1
        (Farm.turn listeners before.number id driver before.farm).2 after ∧
      ∀ goal, before.Reaches id (4 * goal) → after.Reaches id (4 * (goal + 1)) := by
  obtain ⟨inside, -⟩ := List.getElem?_eq_some_iff.1 found
  have third := (((Turning.start listeners found).drive inside).drive inside).drive
    inside
  have come : ∀ goal, before.Reaches id (4 * goal) →
      (((before.drive listeners id).drive listeners id).drive listeners id).Reaches id
        (4 * goal + 3) :=
    fun goal come => come.drive_self.drive_self.drive_self
  unfold Farm.turn
  dsimp only
  split
  · exact ⟨_, third.drive inside, fun goal before => (come goal before).drive_self⟩
  · next unpublished =>
    refine ⟨_, third, fun goal before => ?_⟩
    obtain ⟨last, there, far⟩ := come goal before
    refine ⟨last, there, far.imp_right fun far => ?_⟩
    -- Only a driver about to publish stands right before a multiple of four.
    have early : last.phase.index ≤ 2 := by
      have same := there
      rw [third.drivers, List.getElem?_set_self inside] at same
      rw [Option.some.inj same] at unpublished
      cases phase : last.phase with
      | publish row colors => exact (unpublished row colors phase).elim
      | test | claim | await | stopped => simp [RowDriver.Phase.index]
    simp only [position, there, Option.map_some, Option.getD_some] at far ⊢
    omega

variable (listeners) in
/-- A turn of every driver behind the first few. -/
theorem turns_driven {before : Rendering ε σ Audience} {done rest : List RowDriver}
    (drivers : before.drivers = done ++ rest) :
    ∃ after, Driven listeners before after ∧
      after.farm = (Farm.turns listeners before.number done.length rest before.farm).2 ∧
      after.drivers =
        done ++ (Farm.turns listeners before.number done.length rest before.farm).1 ∧
      (∀ id goal, id < done.length → before.Reaches id goal → after.Reaches id goal) ∧
      ∀ id goal, done.length ≤ id → before.Reaches id (4 * goal) →
        after.Reaches id (4 * (goal + 1)) := by
  induction rest generalizing before done with
  | nil =>
      refine ⟨before, .refl before, rfl, drivers, fun _ _ _ come => come, ?_⟩
      rintro id goal beyond ⟨driver, found, -⟩
      obtain ⟨inside, -⟩ := List.getElem?_eq_some_iff.1 found
      rw [drivers, List.append_nil] at inside
      omega
  | cons driver rest ih =>
      have found : before.drivers[done.length]? = some driver := by simp [drivers]
      obtain ⟨middle, turning, come⟩ := turn_driven listeners found
      have split : middle.drivers =
          done ++ [(Farm.turn listeners before.number done.length driver before.farm).1] ++ rest := by
        rw [turning.drivers, drivers]
        simp
      obtain ⟨after, driven, farm, drivers', kept, further⟩ := ih split
      rw [turning.driven.number, turning.farm, List.length_append, List.length_singleton]
        at farm drivers'
      rw [List.length_append, List.length_singleton] at kept further
      refine ⟨after, turning.driven.trans driven, farm, ?_, ?_, ?_⟩
      · rw [drivers', List.append_assoc]
        rfl
      · exact fun id goal inside reaches =>
          kept id goal (by omega) (turning.others id goal (by omega) reaches)
      · intro id goal beyond reaches
        by_cases same : id = done.length
        · subst same
          exact kept _ _ (by omega) (come goal reaches)
        · exact further id goal (by omega) (turning.others id _ same reaches)

/-- Rounds take every driver that has not stopped past a multiple of four each. -/
theorem rounds_driven (count goal : Nat) {before : Rendering ε σ Audience}
    (come : ∀ id < before.drivers.length, before.Reaches id (4 * goal)) :
    ∃ after, Driven listeners before after ∧
      Farm.rounds listeners before.number count before.drivers before.farm =
        (after.drivers, after.farm) ∧
      after.drivers.length = before.drivers.length ∧
      ∀ id < after.drivers.length, after.Reaches id (4 * (goal + count)) := by
  induction count generalizing before goal with
  | zero => exact ⟨before, .refl before, rfl, rfl, come⟩
  | succ count ih =>
      by_cases stopped : before.drivers.all RowDriver.isStopped = true
      · refine ⟨before, .refl before, by simp only [Farm.rounds, stopped, if_true], rfl, ?_⟩
        intro id inside
        have halted := List.all_eq_true.1 stopped _ (List.getElem_mem inside)
        exact ⟨_, List.getElem?_eq_getElem inside, .inl (by simpa [RowDriver.isStopped] using halted)⟩
      · obtain ⟨middle, driven, farm, drivers, -, further⟩ :=
          turns_driven listeners (List.nil_append before.drivers).symm
        rw [List.length_nil] at farm drivers further
        rw [List.nil_append] at drivers
        have length : middle.drivers.length = before.drivers.length := by
          obtain ⟨schedule, rfl⟩ := driven
          exact length_drivers_play listeners before _
        obtain ⟨after, along, rounds, lengths, reached⟩ := ih (goal + 1) (by
          intro id inside
          exact further id goal (Nat.zero_le id) (come id (length ▸ inside)))
        refine ⟨after, driven.trans along, ?_, lengths.trans length, ?_⟩
        · rw [driven.number, farm, drivers] at rounds
          simp only [Farm.rounds, if_neg stopped]
          exact rounds
        · intro id inside
          have come := reached id inside
          rwa [Nat.add_right_comm, Nat.add_assoc] at come

/-- After any schedule, rounds stop every driver. -/
theorem rounds_stopped {farm : Farm ε σ Audience} (lenient : listeners.MayCancel farm.cursors.size)
    (size : Dimensions) (schedule : List Nat) :
    let scheduled := (start listeners farm size).play listeners (schedule.map .drive)
    ∃ after, Driven listeners (start listeners farm size) after ∧
      Farm.rounds listeners scheduled.number (size.height.toNat + 1) scheduled.drivers
        scheduled.farm = (after.drivers, after.farm) ∧
      after.drivers.all RowDriver.isStopped = true := by
  intro scheduled
  have begun : ∀ id < scheduled.drivers.length, scheduled.Reaches id (4 * 0) :=
    fun id inside => ⟨_, List.getElem?_eq_getElem inside, .inr (Nat.zero_le _)⟩
  obtain ⟨after, driven, rounds, -, reached⟩ := rounds_driven (size.height.toNat + 1) 0 begun
  have whole : Driven listeners (start listeners farm size) after :=
    Driven.trans ⟨schedule, rfl⟩ driven
  refine ⟨after, whole, rounds, List.all_eq_true.2 fun driver member => ?_⟩
  obtain ⟨id, inside, rfl⟩ := List.mem_iff_getElem.1 member
  obtain ⟨driver, found, halted | far⟩ := reached id inside
  · obtain rfl := Option.some.inj ((List.getElem?_eq_getElem inside).symm.trans found)
    simp [RowDriver.isStopped, halted]
  · -- A driver that is still moving would be done with more rows than the scene has.
    obtain ⟨moves, rfl⟩ := whole
    obtain ⟨p, shows, sound⟩ := play_sound lenient size (moves.map .drive)
    have few := sound.regular.length_settled_le id
    rw [← shows.history] at few
    have low : driver.phase.index ≤ 3 := by cases driver.phase <;> simp [RowDriver.Phase.index]
    simp only [position, found, Option.map_some, Option.getD_some] at far
    omega

end Rendering

end RenderFarm
