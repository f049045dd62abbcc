import RenderFarm.Proofs.Rendering.Report
import RenderFarm.Proofs.Worker.Deaths

/-!
# Rows lost with their workers

Workers may die at any moment of a render, a driver whose worker is gone stops, and the row that it
has in hand is lost. The others go on. As long as one driver loses nothing, all rows are claimed, and
the rows that are not published are those lost, one for each driver that stopped over it
(`rows_lost_with_workers`).
-/

namespace RenderFarm

open Occurrence RenderFarm.Language

namespace Progress

/-- While the flag is down, there is no cancel to report. -/
def Uneventful (p : Progress) : Prop :=
  p.cursor.cancelled = false → p.closing = .waiting ∨ p.closing = .closed false

theorem Uneventful.advance {p q : Progress} (advance : Advance p q) (uneventful : Uneventful p) :
    Uneventful q := by
  intro down
  have before : p.cursor.cancelled = false := by
    refine Bool.eq_false_iff.2 fun raised => ?_
    rw [advance.cancelled_of_cancelled raised] at down
    cases down
  have closing := uneventful before
  cases advance with
  | read waiting => simp [before]
  | reread reading => simp [reading] at closing
  | count counting => simp [counting] at closing
  | raise => simp [RowCursor.raise] at down
  | test | claim | miss | receive | skip | lose | publish | take | record => exact closing

end Progress

namespace Rendering

variable {ε σ Audience : Type} [Scene σ] [Evaluator ε σ]

/-- A row is lost when the worker of its driver has died. -/
theorem died_of_lost {listeners : Listeners ε σ Audience} {farm : Farm ε σ Audience}
    {size : Dimensions} (spare : listeners.SpareCursor farm.cursors.size)
    (steady : Scene.Steady σ) {moves : List (Move ε σ)}
    (retained : ∀ before, before <+: moves →
      ∀ worker ∈ ((start listeners farm size).play listeners before).farm.workers,
        worker.Retains size.height)
    {id : Nat} {row : UInt32}
    (lost : .lost id row ∈ ((start listeners farm size).play listeners moves).history) :
    ∃ before rest, moves = before ++ .drive id :: rest ∧
      ∀ worker ∈ ((start listeners farm size).play listeners (before ++ [.drive id])).farm.workers[id]?,
        worker.listens = false := by
  induction moves using List.reverseRecOn with
  | nil => cases lost
  | append_singleton moves move ih =>
      have kept : ∀ before, before <+: moves → _ := fun before isBefore =>
        retained before (isBefore.trans (List.prefix_append ..))
      have stepped := lost
      rw [play_append] at stepped
      rcases noted_of_step stepped with already | ⟨other, driver, rfl, found, noted⟩
      · obtain ⟨before, rest, rfl, died⟩ := ih kept already
        exact ⟨before, rest ++ [move], by simp, died⟩
      · obtain ⟨p, shows, lawful, -⟩ := play_lawful spare size moves
        obtain ⟨rfl, phase, answer⟩ := refused_of_stepDriver shows.cursor noted rfl
        have inside : row.toNat < size.height.toNat :=
          lawful.lt_of_await (shows.drivers ▸ found) phase
        have died := Farm.listens_of_disconnected steady (UInt32.lt_iff_toNat_lt.2 inside)
          (fun worker there => retained moves (List.prefix_append ..) worker
            (Array.mem_of_getElem? there)) answer
        have cursor : ((start listeners farm size).play listeners moves).farm.cursors[
            ((start listeners farm size).play listeners moves).number]? = some p.cursor :=
          shows.cursor
        refine ⟨moves, [], rfl, ?_⟩
        rw [play_append]
        generalize (start listeners farm size).play listeners moves = rendering at *
        simpa only [play, List.foldl_cons, List.foldl_nil, step, drive, found, Farm.stepDriver,
          cursor, phase] using died

/-- A render that nobody cancels tells of no cancel. -/
theorem cancelled_eq_false {listeners : Listeners ε σ Audience} {farm : Farm ε σ Audience}
    {size : Dimensions} (spare : listeners.SpareCursor farm.cursors.size)
    {moves : List (Move ε σ)} (uncancelled : ∀ move ∈ moves, move.isCancel = false)
    {cancelled : Bool}
    (closed : ((start listeners farm size).play listeners moves).closing = .closed cancelled) :
    cancelled = false := by
  obtain ⟨p, shows, leads⟩ := play_shows spare (start_shows spare size) moves
  have uneventful : p.Uneventful :=
    leads.keep Progress.Uneventful.advance fun _ => .inl rfl
  rw [shows.closing] at closed
  rcases uneventful (play_uncancelled spare size uncancelled shows).2 with waiting | quiet
  · rw [waiting] at closed
    cases closed
  · exact (Closing.closed.inj (quiet.symm.trans closed)).symm

/-- What a render comes to when workers die and nobody cancels: if some driver loses no row, all
rows are claimed, and those that are not published are those lost with their workers, which are at
most one for each driver. Subscriptions hear of the rest, and the report counts them and tells of no
cancel. -/
theorem rows_lost_with_workers (listeners : Listeners ε σ Audience) (farm : Farm ε σ Audience)
    (size : Dimensions) (moves : List (Move ε σ))
    (spare : listeners.SpareCursor farm.cursors.size) (steady : Scene.Steady σ)
    (uncancelled : ∀ move ∈ moves, move.isCancel = false)
    (retained : ∀ before, before <+: moves →
      ∀ worker ∈ ((start listeners farm size).play listeners before).farm.workers,
        worker.Retains size.height) :
    let after := (start listeners farm size).play listeners moves
    (∃ id < after.drivers.length, ∀ row, .lost id row ∉ after.history) →
    ∀ report ∈ after.report?,
      (∀ row, row ∈ claims after.history ↔ row < size.height) ∧
      (∀ row, row < size.height →
        (row ∉ lines after.history ↔ ∃ id, .lost id row ∈ after.history)) ∧
      ((losses after.history).map Prod.fst).Nodup ∧
      (∀ id row, .lost id row ∈ after.history → ∃ before rest, moves = before ++ .drive id :: rest ∧
        ∀ worker ∈
            ((start listeners farm size).play listeners (before ++ [.drive id])).farm.workers[id]?,
          worker.listens = false) ∧
      report.rowsComputed + (losses after.history).length = size.height.toNat ∧
      report.cancelled = false ∧ after.HeardAsRecorded listeners farm size := by
  rintro after ⟨id, driven, unlost⟩ report returned
  obtain ⟨closed, computed⟩ := report?_eq_some returned
  obtain ⟨p, shows, lawful, -⟩ := play_lawful spare size moves
  have history : after.history = p.history := shows.history
  have drivers : after.drivers = p.drivers := shows.drivers
  have still := play_uncancelled spare size uncancelled shows
  have unskipped : ∀ id row, .skipped id row ∉ p.history := fun id row =>
    history ▸ play_unskipped spare size steady retained id row
  have stopped : p.drivers.all RowDriver.isStopped = true := by
    refine lawful.closed.resolve_left fun waiting => ?_
    rw [shows.closing, waiting] at closed
    cases closed
  -- The driver that lost nothing can only have found no row left.
  have all : (claims p.history).length = size.height.toNat := by
    rw [drivers] at driven
    have halted : p.drivers[id].phase = .stopped := by
      simpa [RowDriver.isStopped] using List.all_eq_true.1 stopped _ (List.getElem_mem driven)
    exact lawful.length_claims still (List.getElem?_eq_getElem driven) halted (history ▸ unlost)
  have claimed : ∀ row, row ∈ claims p.history ↔ row < size.height := by
    intro row
    rw [lawful.banded.mem_claims, all, Nat.sub_self, UInt32.lt_iff_toNat_lt]
    simp only [Nat.zero_le, true_and]
  refine ⟨history ▸ claimed, fun row inside => ?_, history ▸ lawful.forsaken.once,
    fun id row lost => died_of_lost spare steady retained lost, ?_,
    cancelled_eq_false spare uncancelled closed, play_heardAsRecorded spare.mayCancel size moves⟩
  · rw [history]
    exact lawful.unpublished_iff unskipped stopped ((claimed row).2 inside)
  · have settled := (lawful.perm_settled stopped).length_eq
    have counted : (p.drivers.map RowDriver.published).sum = (lines p.history).length :=
      lawful.counted
    rw [computed, drivers, counted, history, ← length_settled p.history unskipped, settled, all]

/-- Worker 0 dies while its driver has the upper of two rows in hand. -/
def untimelyDeath : List (Move Bindings Picture) :=
  [.drive 0, .drive 0,
    .alter 0 (Worker.holding 0 Bindings.empty (⟨⟨1, 2⟩, .solid .black⟩ : Picture)).retire,
    .drive 0, .drive 1, .drive 1, .drive 1, .drive 1, .drive 1, .drive 1, .close]

/-- The driver of worker 1 publishes the row that is left, and no other waits in the channel. -/
theorem untimely_death_loses_upper_row :
    let after := (start .silent wiredPair ⟨1, 2⟩).play .silent untimelyDeath
    after.report? = some ⟨1, false⟩ ∧ 1 ∉ lines after.history ∧
      (∀ row < 2, row ∈ claims after.history) ∧
      after.farm.bus.waitingOf Event.isOfRender ⟨0⟩ =
        [.sceneLoaded ⟨1, 2⟩, .lineComputed 0 ⟨1, 2⟩ [0]] := by
  intro after
  have history : after.history =
      [.claimed 0 1, .lost 0 1, .claimed 1 0, .published 1 0 [0]] := by
    decide +kernel
  have report : after.report? = some ⟨1, false⟩ := by decide +kernel
  have retained : ∀ before ∈ untimelyDeath.inits,
      ∀ worker ∈ ((start .silent wiredPair ⟨1, 2⟩).play .silent before).farm.workers,
        worker.Retains 2 := by
    decide +kernel
  obtain ⟨claimed, unpublished, -, -, -, -, heard⟩ := rows_lost_with_workers .silent wiredPair ⟨1, 2⟩
    untimelyDeath (Listeners.silent_spareCursor _) Picture.steady (by decide)
    (fun before isBefore => retained before ((List.mem_inits _ _).2 isBefore))
    ⟨1, by decide +kernel, by rw [history]; simp⟩ _ report
  have waiting := heard ⟨⟨0⟩, .render, .channel⟩ _ (Listeners.follows_channel .render fun _ _ _ => rfl)
    (fun _ _ _ lists => lists) (by decide) (by decide)
  rw [history] at waiting
  exact ⟨report, (unpublished 1 (by decide)).2 ⟨0, by rw [history]; simp⟩,
    fun row inside => (claimed row).2 inside, waiting⟩

end Rendering

end RenderFarm
