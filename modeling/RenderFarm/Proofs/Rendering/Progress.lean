import Mathlib.Logic.Relation
import RenderFarm.Proofs.Farm.Frame
import RenderFarm.Proofs.Rendering.Moves

/-!
# What a move can do to a render

`Progress` is a render under way without its farm, of which only the cursor is kept, and `Advance` is
one access seen there, with a rule for each kind of access and each way it can turn out. Every move
of a rendering shows as at most one advance (`step_shows`), whatever the workers answer and whatever
the listeners do beside sparing the cursor. So an invariant of all interleavings is checked once for
each rule, and holds of every play (`play_shows`).
-/

namespace RenderFarm

/-- A render under way, seen from its cursor. -/
structure Progress where
  cursor : RowCursor
  drivers : List RowDriver
  cancelling : Option Cancelling
  closing : Closing
  history : List Occurrence

namespace Progress

/-- A render with `count` drivers of which none has moved. -/
def start (size : Dimensions) (count : Nat) : Progress :=
  ⟨.start size, List.replicate count RowDriver.start, none, .waiting, []⟩

def setDriver (progress : Progress) (id : Nat) (driver : RowDriver) : Progress :=
  { progress with drivers := progress.drivers.set id driver }

def note (progress : Progress) (occurrence : Occurrence) : Progress :=
  { progress with history := progress.history ++ [occurrence] }

/-- One access. The first rules are those of a driver, then come those of a cancel and those of the
render's own thread. -/
inductive Advance : Progress → Progress → Prop
  | test {p : Progress} {id : Nat} {driver : RowDriver} :
    p.drivers[id]? = some driver → driver.phase = .test →
    Advance p (p.setDriver id (driver.tested p.cursor.cancelled))
  | claim {p : Progress} {id : Nat} {driver : RowDriver} {row : UInt32} :
    p.drivers[id]? = some driver → driver.phase = .claim → p.cursor.claim.1 = some row →
    Advance p ((({ p with cursor := p.cursor.claim.2 }).setDriver id
      (driver.claimed (some row))).note (.claimed id row))
  | miss {p : Progress} {id : Nat} {driver : RowDriver} :
    p.drivers[id]? = some driver → driver.phase = .claim → p.cursor.claim.1 = none →
    Advance p (({ p with cursor := p.cursor.claim.2 }).setDriver id (driver.claimed none))
  | receive {p : Progress} {id : Nat} {driver : RowDriver} {row : UInt32}
      {colors : List UInt32} :
    p.drivers[id]? = some driver → driver.phase = .await row →
    Advance p (p.setDriver id (driver.answered row (.colors colors)))
  | skip {p : Progress} {id : Nat} {driver : RowDriver} {row : UInt32} :
    p.drivers[id]? = some driver → driver.phase = .await row →
    Advance p ((p.setDriver id (driver.answered row .noScene)).note (.skipped id row))
  | lose {p : Progress} {id : Nat} {driver : RowDriver} {row : UInt32} :
    p.drivers[id]? = some driver → driver.phase = .await row →
    Advance p ((p.setDriver id (driver.answered row .disconnected)).note (.lost id row))
  | publish {p : Progress} {id : Nat} {driver : RowDriver} {row : UInt32}
      {colors : List UInt32} :
    p.drivers[id]? = some driver → driver.phase = .publish row colors →
    Advance p ((p.setDriver id driver.sent).note (.published id row colors))
  | take {p : Progress} :
    p.cancelling = none →
    Advance p { p with
      cursor := p.cursor.take.2, cancelling := some (.record p.cursor.take.1) }
  | record {p : Progress} {position : Int} :
    p.cancelling = some (.record position) →
    Advance p { p with cursor := p.cursor.record position, cancelling := some .raise }
  | raise {p : Progress} :
    p.cancelling = some .raise →
    Advance p { p with cursor := p.cursor.raise, cancelling := none }
  | read {p : Progress} :
    p.closing = .waiting → p.drivers.all RowDriver.isStopped = true →
    Advance p { p with closing := if p.cursor.cancelled then .reading else .closed false }
  | reread {p : Progress} :
    p.closing = .reading → Advance p { p with closing := .counting p.cursor.cancelled }
  | count {p : Progress} {flag : Bool} :
    p.closing = .counting flag →
    Advance p { p with closing := .closed (0 < p.cursor.remainingAfter flag) }

/-- Any number of accesses. -/
abbrev Leads : Progress → Progress → Prop :=
  Relation.ReflTransGen Advance

/-- A property that every step keeps is kept by any number of them. -/
theorem keep_many {R : Progress → Progress → Prop} {P : Progress → Prop} {p q : Progress}
    (many : Relation.ReflTransGen R p q) (kept : ∀ {p q}, R p q → P p → P q) (holds : P p) :
    P q := by
  induction many with
  | refl => exact holds
  | tail _ step ih => exact kept step ih

theorem Leads.keep {P : Progress → Prop} (kept : ∀ {p q}, Advance p q → P p → P q)
    {p q : Progress} (leads : Leads p q) (holds : P p) : P q :=
  keep_many leads kept holds

end Progress

namespace Rendering

variable {ε σ Audience : Type}

/-- A rendering in the state of a progress. -/
structure Shows (rendering : Rendering ε σ Audience) (progress : Progress) : Prop where
  cursor : rendering.cursor? = some progress.cursor
  drivers : rendering.drivers = progress.drivers
  cancelling : rendering.cancelling = progress.cancelling
  closing : rendering.closing = progress.closing
  history : rendering.history = progress.history

variable {listeners : Listeners ε σ Audience} {rendering : Rendering ε σ Audience} {p : Progress}

theorem cursor?_setCursor {cursor : RowCursor} (there : rendering.cursor? = some cursor)
    (next : RowCursor) : (rendering.setCursor next).cursor? = some next := by
  unfold cursor? at there
  simp [cursor?, setCursor, Farm.modifyCursor, Array.getElem?_modify, there]

/-- A render starts at the start, with a driver for each worker there is. -/
theorem start_shows {farm : Farm ε σ Audience} (spare : listeners.SpareCursor farm.cursors.size)
    (size : Dimensions) :
    (start listeners farm size).Shows
      (.start size (start listeners farm size).drivers.length) := by
  have kept := spare.unheard.publish (.sceneLoaded size) (farm.beginRender size).2
  have begun : (farm.beginRender size).2.cursors[farm.cursors.size]? = some (.start size) := by
    simp only [Farm.beginRender, Array.getElem?_push_size]
  refine ⟨kept.trans begun, ?_, rfl, rfl, rfl⟩
  simp only [start, Progress.start, List.length_replicate]

theorem cancel_shows (shows : rendering.Shows p) :
    ∃ q, (rendering.cancel p.cursor).Shows q ∧ p.Advance q := by
  have shown := shows.cancelling
  cases under : p.cancelling with
  | none =>
      rw [under] at shown
      refine ⟨_, ?_, .take under⟩
      simp only [cancel, shown]
      exact ⟨cursor?_setCursor shows.cursor _, shows.drivers, rfl, shows.closing, shows.history⟩
  | some cancelling =>
      rw [under] at shown
      cases cancelling with
      | record position =>
          refine ⟨_, ?_, .record under⟩
          simp only [cancel, shown]
          exact ⟨cursor?_setCursor shows.cursor _, shows.drivers, rfl, shows.closing, shows.history⟩
      | raise =>
          refine ⟨_, ?_, .raise under⟩
          simp only [cancel, shown]
          exact ⟨cursor?_setCursor shows.cursor _, shows.drivers, rfl, shows.closing, shows.history⟩

theorem close_shows (shows : rendering.Shows p) :
    ∃ q, (rendering.close p.cursor).Shows q ∧ (q = p ∨ p.Advance q) := by
  have shown := shows.closing
  cases stage : p.closing with
  | waiting =>
      rw [stage] at shown
      by_cases stopped : p.drivers.all RowDriver.isStopped = true
      · refine ⟨_, ?_, .inr (.read stage stopped)⟩
        simp only [close, shown, shows.drivers, stopped, if_true]
        exact ⟨shows.cursor, rfl, shows.cancelling, rfl, shows.history⟩
      · refine ⟨p, ?_, .inl rfl⟩
        simpa only [close, shown, shows.drivers, if_neg stopped] using shows
  | reading =>
      rw [stage] at shown
      refine ⟨_, ?_, .inr (.reread stage)⟩
      simp only [close, shown]
      exact ⟨shows.cursor, shows.drivers, shows.cancelling, rfl, shows.history⟩
  | counting flag =>
      rw [stage] at shown
      refine ⟨_, ?_, .inr (.count stage)⟩
      simp only [close, shown]
      exact ⟨shows.cursor, shows.drivers, shows.cancelling, rfl, shows.history⟩
  | closed cancelled =>
      rw [stage] at shown
      refine ⟨p, ?_, .inl rfl⟩
      simpa only [close, shown] using shows

variable [Scene σ] [Evaluator ε σ]

/-- What a step of a driver leaves, given what it does to the driver and to the farm. -/
theorem drive_shows_of_step (shows : rendering.Shows p) {id : Nat} {driver next : RowDriver}
    {farm : Farm ε σ Audience} {cursor : RowCursor} (driverAt : p.drivers[id]? = some driver)
    (stepped : Farm.stepDriver listeners rendering.number id driver rendering.farm = (next, farm))
    (cursorAt : farm.cursors[rendering.number]? = some cursor) :
    (rendering.drive listeners id).Shows
      { p with
        cursor := cursor
        drivers := p.drivers.set id next
        history := p.history ++ (RowDriver.occurrence? id driver.phase next.phase).toList } := by
  rw [← shows.drivers] at driverAt
  simp only [drive, driverAt, stepped]
  exact ⟨cursorAt, by simp only [shows.drivers], shows.cancelling, shows.closing,
    by simp only [shows.history]⟩

/-- A step of a driver is one of the rules for drivers, or nothing, whatever the callbacks made of the
cursor before. -/
theorem drive_shows_after {Left : RowCursor → Prop}
    (lasting : Farm.Lasting listeners fun farm =>
      ∃ cursor, farm.cursors[rendering.number]? = some cursor ∧ Left cursor)
    (now : Left p.cursor) (shows : rendering.Shows p) (id : Nat) :
    ∃ cursor q, Left cursor ∧ (rendering.drive listeners id).Shows q ∧
      (q = p ∨ Progress.Advance { p with cursor := cursor } q) := by
  have cursorAt : rendering.farm.cursors[rendering.number]? = some p.cursor := shows.cursor
  cases found : p.drivers[id]? with
  | none =>
      have driverAt : rendering.drivers[id]? = none := by rw [shows.drivers, found]
      exact ⟨_, p, now, by simpa only [drive, driverAt] using shows, .inl rfl⟩
  | some driver =>
      cases phase : driver.phase with
      | test =>
          have stepped : Farm.stepDriver listeners rendering.number id driver rendering.farm =
              (driver.tested p.cursor.cancelled, rendering.farm) := by
            simp only [Farm.stepDriver, cursorAt, phase]
          have after := drive_shows_of_step shows found stepped cursorAt
          rw [phase, RowDriver.occurrence?_test, Option.toList_none, List.append_nil] at after
          exact ⟨_, _, now, after, .inr (.test found phase)⟩
      | claim =>
          have stepped : Farm.stepDriver listeners rendering.number id driver rendering.farm =
              (driver.claimed p.cursor.claim.1,
                (rendering.setCursor p.cursor.claim.2).farm) := by
            simp only [Farm.stepDriver, cursorAt, phase, setCursor]
          have after := drive_shows_of_step shows found stepped (cursor?_setCursor cursorAt _)
          cases row : p.cursor.claim.1 with
          | none =>
              have nothing : RowDriver.occurrence? id .claim (driver.claimed none).phase = none := rfl
              rw [phase, row, nothing, Option.toList_none, List.append_nil] at after
              exact ⟨_, _, now, after, .inr (.miss found phase row)⟩
          | some row' =>
              rw [phase, row] at after
              exact ⟨_, _, now, after, .inr (.claim found phase row)⟩
      | await row =>
          obtain ⟨cursor, kept, left⟩ :=
            (lasting.keeps fun _ _ _ kept => kept).answerRow id row ⟨_, cursorAt, now⟩
          have stepped : Farm.stepDriver listeners rendering.number id driver rendering.farm =
              (driver.answered row (rendering.farm.answerRow listeners id row).1,
                (rendering.farm.answerRow listeners id row).2) := by
            simp only [Farm.stepDriver, cursorAt, phase]
          have after := drive_shows_of_step shows found stepped kept
          cases answer : (rendering.farm.answerRow listeners id row).1 with
          | colors colors =>
              have nothing : RowDriver.occurrence? id (.await row)
                  (driver.answered row (.colors colors)).phase = none := rfl
              rw [phase, answer, nothing, Option.toList_none, List.append_nil] at after
              exact ⟨_, _, left, after, .inr (.receive found phase)⟩
          | noScene =>
              rw [phase, answer] at after
              exact ⟨_, _, left, after, .inr (.skip found phase)⟩
          | disconnected =>
              rw [phase, answer] at after
              exact ⟨_, _, left, after, .inr (.lose found phase)⟩
      | publish row colors =>
          obtain ⟨cursor, kept, left⟩ :=
            lasting.publish (.lineComputed row p.cursor.size colors) ⟨_, cursorAt, now⟩
          have stepped : Farm.stepDriver listeners rendering.number id driver rendering.farm =
              (driver.sent,
                rendering.farm.publish listeners (.lineComputed row p.cursor.size colors)) := by
            simp only [Farm.stepDriver, cursorAt, phase]
          have after := drive_shows_of_step shows found stepped kept
          rw [phase] at after
          exact ⟨_, _, left, after, .inr (.publish found phase)⟩
      | stopped =>
          have stepped : Farm.stepDriver listeners rendering.number id driver rendering.farm =
              (driver, rendering.farm) := by
            simp only [Farm.stepDriver, cursorAt, phase]
          have after := drive_shows_of_step shows found stepped cursorAt
          have nothing : RowDriver.occurrence? id .stopped .stopped = none := rfl
          obtain ⟨inside, rfl⟩ := List.getElem?_eq_some_iff.1 found
          rw [phase, nothing, Option.toList_none, List.append_nil, List.set_getElem_self] at after
          exact ⟨_, p, now, after, .inl rfl⟩

/-- A step of a driver is one of the rules for drivers, or nothing. -/
theorem drive_shows (spare : listeners.SpareCursor rendering.number) (shows : rendering.Shows p)
    (id : Nat) :
    ∃ q, (rendering.drive listeners id).Shows q ∧ (q = p ∨ p.Advance q) := by
  obtain ⟨_, q, rfl, shown, moved⟩ := drive_shows_after (spare.lasting p.cursor) rfl shows id
  exact ⟨q, shown, moved⟩

/-- A move that is not a driver's is one of the rules, or nothing, whatever listeners do. -/
theorem step_shows_aside (shows : rendering.Shows p) {move : Move ε σ}
    (aside : ∀ id, move ≠ .drive id) :
    ∃ q, (rendering.step listeners move).Shows q ∧ (q = p ∨ p.Advance q) := by
  cases move with
  | drive id => exact absurd rfl (aside id)
  | cancel =>
      obtain ⟨q, shown, advance⟩ := cancel_shows shows
      refine ⟨q, ?_, .inr advance⟩
      simpa only [step, shows.cursor, Option.map_some, Option.getD_some] using shown
  | close =>
      simpa only [step, shows.cursor, Option.map_some, Option.getD_some] using close_shows shows
  | alter id worker =>
      exact ⟨p, ⟨shows.cursor, shows.drivers, shows.cancelling, shows.closing, shows.history⟩,
        .inl rfl⟩

/-- A move is one of the rules, or nothing. -/
theorem step_shows (spare : listeners.SpareCursor rendering.number) (shows : rendering.Shows p)
    (move : Move ε σ) :
    ∃ q, (rendering.step listeners move).Shows q ∧ (q = p ∨ p.Advance q) := by
  cases move with
  | drive id => exact drive_shows spare shows id
  | cancel | close | alter => exact step_shows_aside shows fun _ => nofun

/-- A render keeps its number. -/
theorem number_step (listeners : Listeners ε σ Audience) (rendering : Rendering ε σ Audience)
    (move : Move ε σ) : (rendering.step listeners move).number = rendering.number := by
  cases move with
  | drive id =>
      simp only [step, drive]
      split <;> rfl
  | cancel =>
      obtain ⟨farm, cancelling, stepped⟩ := step_cancel listeners rendering
      rw [stepped]
  | close =>
      obtain ⟨closing, stepped⟩ := step_close listeners rendering
      rw [stepped]
  | alter id worker => rfl

theorem number_play (listeners : Listeners ε σ Audience) (rendering : Rendering ε σ Audience)
    (moves : List (Move ε σ)) : (rendering.play listeners moves).number = rendering.number := by
  induction moves generalizing rendering with
  | nil => rfl
  | cons move rest ih => exact (ih _).trans (number_step listeners rendering move)

/-- A move keeps what requests and publications keep, if it does not depend on the cursors. -/
theorem step_keeps {P : Farm ε σ Audience → Prop} (keeps : Farm.Keeps listeners P)
    (publishes : ∀ event farm, P farm → P (farm.publish listeners event))
    (cursors : ∀ farm cursors, P farm → P { farm with cursors := cursors }) (move : Move ε σ)
    (holds : P rendering.farm) : P (rendering.step listeners move).farm := by
  cases move with
  | drive id =>
      simp only [step, drive]
      split
      · exact holds
      · exact keeps.stepDriver (fun _ _ _ => cursors _ _) publishes id _ holds
  | cancel =>
      simp only [step]
      cases rendering.cursor? with
      | none => exact holds
      | some cursor =>
          simp only [Option.map_some, Option.getD_some, cancel]
          split <;> exact cursors _ _ holds
  | close =>
      obtain ⟨closing, stepped⟩ := step_close listeners rendering
      rwa [stepped]
  | alter id worker => exact keeps.setWorker _ _ _ holds

theorem play_keeps {P : Farm ε σ Audience → Prop} (keeps : Farm.Keeps listeners P)
    (publishes : ∀ event farm, P farm → P (farm.publish listeners event))
    (cursors : ∀ farm cursors, P farm → P { farm with cursors := cursors }) (moves : List (Move ε σ))
    (holds : P rendering.farm) : P (rendering.play listeners moves).farm := by
  induction moves generalizing rendering with
  | nil => exact holds
  | cons move rest ih => exact ih (step_keeps keeps publishes cursors move holds)

/-- A play is a sequence of accesses. -/
theorem play_shows (spare : listeners.SpareCursor rendering.number) (shows : rendering.Shows p)
    (moves : List (Move ε σ)) :
    ∃ q, (rendering.play listeners moves).Shows q ∧ p.Leads q := by
  induction moves generalizing rendering p with
  | nil => exact ⟨p, shows, .refl⟩
  | cons move rest ih =>
      obtain ⟨middle, shown, moved⟩ := step_shows spare shows move
      rw [← number_step listeners rendering move] at spare
      obtain ⟨last, reached, leads⟩ := ih spare shown
      rcases moved with rfl | advance
      · exact ⟨last, reached, leads⟩
      · exact ⟨last, reached, .head advance leads⟩

end Rendering

end RenderFarm
