import Mathlib.Data.List.Induction
import Mathlib.Data.List.Infix
import Mathlib.Data.List.Perm.Subperm
import RenderFarm.Proofs.Rendering.Cancels
import RenderFarm.Proofs.Rendering.Counts
import RenderFarm.Proofs.Worker.Retention

/-!
# Every row once

What holds of a render at every moment of every interleaving, drivers, cancels and changes of the
workers taken together, is `Progress.Lawful`; all but the record of cancels is `Progress.Regular`.
From it: no row is claimed or published twice, the rows claimed are the top rows, and each driver
claims from the top down. When nobody cancels and the workers keep a scene that is high enough, nothing
else can end a driver than the end of the rows, so all of them are published (`play_count_lines`).
-/

namespace RenderFarm

open Occurrence RenderFarm.Language

/-- The driver, the row, and the answer, where a row came back without colors. -/
def Occurrence.refusal? : Occurrence → Option (Nat × UInt32 × RowDriver.Answer)
  | .skipped id row => some (id, row, .noScene)
  | .lost id row => some (id, row, .disconnected)
  | .claimed .. | .published .. => none

namespace Progress

/-- What every access keeps. -/
structure Regular (height : Nat) (p : Progress) : Prop where
  banded : Banded height p
  accounted : Accounted p
  grounded : Grounded p
  counted : Counted p
  forsaken : Forsaken p
  closed : Closed p

theorem Regular.start (size : Dimensions) (count : Nat) :
    Regular size.height.toNat (.start size count) :=
  ⟨.start size count, .start size count, .start size count, .start size count, .start size count,
    .inl rfl⟩

theorem Regular.advance {height : Nat} {p q : Progress} (advance : Advance p q)
    (regular : Regular height p) : Regular height q :=
  ⟨regular.banded.advance advance, regular.accounted.advance advance,
    regular.grounded.advance advance, regular.counted.advance advance,
    regular.forsaken.advance advance, regular.closed.advance advance⟩

section Regular

variable {height : Nat} {p : Progress} (regular : Regular height p)
include regular

/-- A row is published by the driver that claimed it. -/
theorem Regular.claimed_of_published {id : Nat} {row : UInt32} {colors : List UInt32}
    (member : .published id row colors ∈ p.history) : .claimed id row ∈ p.history :=
  regular.accounted.claimed_of_settled
    (mem_settled.2 ⟨.published id row colors, by simpa [byDriver, driver] using member, rfl⟩)

theorem Regular.nodup_settled : (settled p.history).Nodup :=
  regular.accounted.nodup_settled regular.banded.nodup_claims

theorem Regular.nodup_lines : (lines p.history).Nodup :=
  regular.nodup_settled.sublist (lines_sublist_settled p.history)

theorem Regular.descending_byDriver (id : Nat) :
    (claims (byDriver id p.history)).Pairwise (· > ·) :=
  regular.banded.descending.sublist (List.filter_sublist.filterMap _)

/-- A row that a driver has in hand lies within the scene. -/
theorem Regular.lt_of_held {id : Nat} {row : UInt32} (member : row ∈ p.held id) :
    row.toNat < height := by
  have claimed : row ∈ claims (byDriver id p.history) := by
    rw [regular.accounted id]
    exact List.mem_append_right _ member
  have claimed := (List.filter_sublist.filterMap _).subset claimed
  exact (regular.banded.mem_claims.1 claimed).2

/-- A row that a driver awaits lies within the scene. -/
theorem Regular.lt_of_await {id : Nat} {driver : RowDriver} {row : UInt32}
    (found : p.drivers[id]? = some driver) (phase : driver.phase = .await row) :
    row.toNat < height := by
  have own : row ∈ p.held id := by simp [held, found, phase, inHand]
  exact regular.lt_of_held own

/-- A row that a driver has in hand was claimed by it and is not settled. -/
theorem Regular.claimed_of_held {id : Nat} {row : UInt32} (member : row ∈ p.held id) :
    .claimed id row ∈ p.history ∧ row ∉ settled (byDriver id p.history) := by
  have own := regular.accounted id
  have once : (claims (byDriver id p.history)).Nodup :=
    (regular.descending_byDriver id).imp fun after => (UInt32.ne_of_lt after).symm
  refine ⟨mem_claims_byDriver.1 (own ▸ List.mem_append_right _ member), fun settled => ?_⟩
  rw [own] at once
  exact List.disjoint_of_nodup_append once settled member

/-- No two drivers have the same row in hand. -/
theorem Regular.eq_of_held {first second : Nat} {row : UInt32} (one : row ∈ p.held first)
    (other : row ∈ p.held second) : first = second :=
  claimed_unique regular.banded.nodup_claims (regular.claimed_of_held one).1
    (regular.claimed_of_held other).1

/-- A row that a driver has in hand is not published. -/
theorem Regular.unpublished_of_held {id : Nat} {row : UInt32} (member : row ∈ p.held id) :
    row ∉ lines p.history := by
  intro published
  obtain ⟨other, colors, published⟩ := mem_lines.1 published
  obtain ⟨claimed, unsettled⟩ := regular.claimed_of_held member
  obtain rfl := claimed_unique regular.banded.nodup_claims claimed
    (regular.claimed_of_published published)
  exact unsettled (mem_settled.2
    ⟨.published id row colors, by simpa [byDriver, driver] using published, rfl⟩)

/-- A driver is done with no more rows than there are. -/
theorem Regular.length_settled_le (id : Nat) :
    (settled (byDriver id p.history)).length ≤ height := by
  have own : (claims (byDriver id p.history)).length ≤ (claims p.history).length :=
    (List.filter_sublist.filterMap _).length_le
  rw [regular.accounted id, List.length_append] at own
  have within := regular.banded.within
  omega

/-- What is settled was claimed. -/
theorem Regular.claimed_of_settled {row : UInt32} (member : row ∈ settled p.history) :
    row ∈ claims p.history := by
  obtain ⟨occurrence, there, shown⟩ := mem_settled.1 member
  have own : row ∈ settled (byDriver occurrence.driver p.history) :=
    mem_settled.2 ⟨occurrence, by simpa [byDriver] using there, shown⟩
  exact mem_claims.2 ⟨_, regular.accounted.claimed_of_settled own⟩

/-- No more lines are published than there are rows. -/
theorem Regular.length_lines_le : (lines p.history).length ≤ height := by
  have claimed : lines p.history ⊆ claims p.history := fun row published =>
    regular.claimed_of_settled ((lines_sublist_settled p.history).subset published)
  exact (List.subperm_of_subset regular.nodup_lines claimed).length_le.trans regular.banded.within

/-- When all drivers have stopped, they are done with all rows that they claimed. -/
theorem Regular.perm_settled (stopped : p.drivers.all RowDriver.isStopped = true) :
    (settled p.history).Perm (claims p.history) := by
  refine (List.perm_ext_iff_of_nodup regular.nodup_settled regular.banded.nodup_claims).2
    fun row => ⟨regular.claimed_of_settled, fun claimed => ?_⟩
  obtain ⟨id, claimed⟩ := mem_claims.1 claimed
  have free : p.held id = [] := by
    unfold held
    cases found : p.drivers[id]? with
    | none => rfl
    | some driver =>
        have halted := List.all_eq_true.1 stopped driver (List.mem_of_getElem? found)
        have halted : driver.phase = .stopped := by simpa [RowDriver.isStopped] using halted
        simp [halted, inHand]
  obtain ⟨occurrence, member, -, shown⟩ := regular.accounted.settled_of_claimed free claimed
  exact mem_settled.2 ⟨occurrence, member, shown⟩

/-- When all drivers have stopped, and none has skipped a row, a row that was claimed is published or
lost. -/
theorem Regular.unpublished_iff (unskipped : ∀ id row, .skipped id row ∉ p.history)
    (stopped : p.drivers.all RowDriver.isStopped = true) {row : UInt32}
    (claimed : row ∈ claims p.history) :
    row ∉ lines p.history ↔ ∃ id, .lost id row ∈ p.history := by
  constructor
  · intro unpublished
    obtain ⟨occurrence, member, shown⟩ :=
      mem_settled.1 ((regular.perm_settled stopped).mem_iff.2 claimed)
    cases occurrence with
    | claimed => cases shown
    | published id line colors =>
        cases shown
        exact (unpublished (mem_lines.2 ⟨id, colors, member⟩)).elim
    | skipped id line => exact (unskipped id line member).elim
    | lost id line =>
        cases shown
        exact ⟨id, member⟩
  · rintro ⟨id, lost⟩ published
    obtain ⟨other, colors, published⟩ := mem_lines.1 published
    cases eq_of_nodup_filterMap regular.nodup_settled lost published rfl rfl

end Regular

/-- All that every access keeps, where a cancel is three of them. -/
structure Lawful (height : Nat) (p : Progress) : Prop extends Regular height p where
  tallied : Tallied height p

theorem Lawful.start (size : Dimensions) (count : Nat) :
    Lawful size.height.toNat (.start size count) :=
  ⟨.start size count, .start size count⟩

theorem Lawful.advance {height : Nat} {p q : Progress} (advance : Advance p q)
    (lawful : Lawful height p) : Lawful height q :=
  ⟨lawful.toRegular.advance advance, lawful.tallied.advance advance lawful.banded⟩

section Lawful

variable {height : Nat} {p : Progress} (lawful : Lawful height p)
include lawful

/-- A driver that stopped without a cancel, and without losing a row, has found no row left. -/
theorem Lawful.length_claims (uncancelled : p.cancelling = none ∧ p.cursor.cancelled = false)
    {id : Nat} {driver : RowDriver} (found : p.drivers[id]? = some driver)
    (stopped : driver.phase = .stopped) (unlost : ∀ row, .lost id row ∉ p.history) :
    (claims p.history).length = height := by
  rcases lawful.grounded id driver found stopped with flag | below | ⟨row, lost⟩
  · simp [uncancelled.2] at flag
  · exact (lawful.tallied.untaken uncancelled.1 uncancelled.2).2 below
  · exact (unlost row lost).elim

/-- Drivers that stopped without a cancel, and without losing or skipping a row, have published all
rows. -/
theorem Lawful.count_lines (uncancelled : p.cancelling = none ∧ p.cursor.cancelled = false)
    (unlost : ∀ id row, .lost id row ∉ p.history)
    (unskipped : ∀ id row, .skipped id row ∉ p.history)
    (driven : 0 < p.drivers.length) (stopped : p.drivers.all RowDriver.isStopped = true)
    {row : UInt32} (inside : row.toNat < height) : (lines p.history).count row = 1 := by
  have halted : p.drivers[0].phase = .stopped := by
    have := List.all_eq_true.1 stopped _ (List.getElem_mem driven)
    simpa [RowDriver.isStopped] using this
  have all := lawful.length_claims uncancelled (List.getElem?_eq_getElem driven) halted (unlost 0)
  have claimed : row ∈ claims p.history := lawful.banded.mem_claims.2 ⟨by omega, inside⟩
  obtain ⟨occurrence, member, shown⟩ :=
    mem_settled.1 ((lawful.perm_settled stopped).mem_iff.2 claimed)
  refine List.count_eq_one_of_mem lawful.nodup_lines (mem_lines.2 ?_)
  cases occurrence with
  | claimed => cases shown
  | published other line colors =>
      cases shown
      exact ⟨_, _, member⟩
  | skipped other line => exact (unskipped other line member).elim
  | lost other line => exact (unlost other line member).elim

end Lawful

/-- A render keeps its size. -/
theorem Advance.size_eq {p q : Progress} (advance : Advance p q) :
    q.cursor.size = p.cursor.size := by
  cases advance <;> rfl

/-- Only cancels raise the flag. -/
theorem Advance.cancelled_eq {p q : Progress} (advance : Advance p q)
    (before : p.cancelling = none) (after : q.cancelling = none) :
    q.cursor.cancelled = p.cursor.cancelled := by
  cases advance with
  | raise under => rw [before] at under; cases under
  | take | record => cases after
  | _ => rfl

end Progress

namespace Rendering

variable {ε σ Audience : Type} [Scene σ] [Evaluator ε σ] {listeners : Listeners ε σ Audience}

theorem play_lawful {farm : Farm ε σ Audience} (spare : listeners.SpareCursor farm.cursors.size)
    (size : Dimensions) (moves : List (Move ε σ)) :
    ∃ p, ((start listeners farm size).play listeners moves).Shows p ∧
      p.Lawful size.height.toNat ∧ p.cursor.size = size := by
  obtain ⟨p, shows, leads⟩ := play_shows spare (start_shows spare size) moves
  have sized := leads.keep (P := fun p => p.cursor.size = size)
    (fun advance same => advance.size_eq.trans same) rfl
  exact ⟨p, shows, leads.keep Progress.Lawful.advance (.start size _), sized⟩

/-! ## Plays without cancels -/

theorem cancelling_step (listeners : Listeners ε σ Audience) (rendering : Rendering ε σ Audience)
    {move : Move ε σ} (other : move.isCancel = false) :
    (rendering.step listeners move).cancelling = rendering.cancelling := by
  cases move with
  | drive id =>
      simp only [step, drive]
      split <;> rfl
  | cancel => cases other
  | close =>
      obtain ⟨closing, stepped⟩ := step_close listeners rendering
      rw [stepped]
  | alter id worker => rfl

/-- A row is skipped or lost only in a step that awaits it, where the answer says so. -/
theorem refused_of_stepDriver {number id other : Nat} {driver : RowDriver}
    {farm : Farm ε σ Audience} {cursor : RowCursor} (there : farm.cursors[number]? = some cursor)
    {occurrence : Occurrence} (noted : RowDriver.occurrence? id driver.phase
      (Farm.stepDriver listeners number id driver farm).1.phase = some occurrence)
    {row : UInt32} {answer : RowDriver.Answer}
    (refused : refusal? occurrence = some (other, row, answer)) :
    other = id ∧ driver.phase = .await row ∧ (farm.answerRow listeners id row).1 = answer := by
  cases phase : driver.phase with
  | test => simp [phase] at noted
  | claim =>
      cases got : cursor.claim.1 <;>
        simp [Farm.stepDriver, there, phase, got, RowDriver.claimed, RowDriver.occurrence?] at noted
      rw [← noted] at refused
      cases refused
  | await asked =>
      cases got : (farm.answerRow listeners id asked).1 <;>
        simp [Farm.stepDriver, there, phase, got, RowDriver.answered, RowDriver.occurrence?]
          at noted
      all_goals
        rw [← noted] at refused
        cases refused
        exact ⟨rfl, rfl, got⟩
  | publish asked colors =>
      simp [Farm.stepDriver, there, phase, RowDriver.sent, RowDriver.occurrence?] at noted
      rw [← noted] at refused
      cases refused
  | stopped => simp [Farm.stepDriver, there, phase, RowDriver.occurrence?] at noted

/-- What is on record after a move was so before, or a driver has just put it there. -/
theorem noted_of_step {rendering : Rendering ε σ Audience} {move : Move ε σ}
    {occurrence : Occurrence} (member : occurrence ∈ (rendering.step listeners move).history) :
    occurrence ∈ rendering.history ∨
      ∃ id driver, move = .drive id ∧ rendering.drivers[id]? = some driver ∧
        RowDriver.occurrence? id driver.phase
          (Farm.stepDriver listeners rendering.number id driver rendering.farm).1.phase =
            some occurrence := by
  cases move with
  | drive id =>
      simp only [step, drive] at member
      split at member
      · exact .inl member
      next driver found =>
      rcases List.mem_append.1 member with before | now
      · exact .inl before
      · exact .inr ⟨id, driver, rfl, found, Option.mem_toList.1 now⟩
  | cancel =>
      obtain ⟨farm, cancelling, stepped⟩ := step_cancel listeners rendering
      rw [stepped] at member
      exact .inl member
  | close =>
      obtain ⟨closing, stepped⟩ := step_close listeners rendering
      rw [stepped] at member
      exact .inl member
  | alter other worker => exact .inl member

/-- Workers that keep a scene of the height of the render skip no row in a move. -/
theorem skipped_of_step {rendering : Rendering ε σ Audience} {p : Progress} {height : UInt32}
    (shows : rendering.Shows p) (regular : p.Regular height.toNat) (steady : Scene.Steady σ)
    (retained : ∀ worker ∈ rendering.farm.workers, worker.Retains height) {move : Move ε σ}
    {id : Nat} {row : UInt32} (member : .skipped id row ∈ (rendering.step listeners move).history) :
    .skipped id row ∈ rendering.history := by
  rcases noted_of_step member with already | ⟨other, driver, rfl, found, noted⟩
  · exact already
  · obtain ⟨rfl, phase, answer⟩ := refused_of_stepDriver shows.cursor noted rfl
    rw [shows.drivers] at found
    have inside := UInt32.lt_iff_toNat_lt.2 (regular.lt_of_await found phase)
    exact (Farm.answerRow_ne_noScene steady inside
      (fun worker there => retained worker (Array.mem_of_getElem? there)) answer).elim

section Play

variable {farm : Farm ε σ Audience} (spare : listeners.SpareCursor farm.cursors.size)
  (size : Dimensions)
include spare

/-- Without a cancel the flag stays down. -/
theorem play_uncancelled {moves : List (Move ε σ)} (none : ∀ move ∈ moves, move.isCancel = false)
    {p : Progress} (shows : ((start listeners farm size).play listeners moves).Shows p) :
    p.cancelling = .none ∧ p.cursor.cancelled = false := by
  induction moves using List.reverseRecOn generalizing p with
  | nil =>
      have begun := start_shows spare size
      have cursor := shows.cursor.symm.trans begun.cursor
      exact ⟨shows.cancelling.symm.trans begun.cancelling, by
        rw [Option.some.inj cursor]
        rfl⟩
  | append_singleton moves move ih =>
      obtain ⟨q, before, -⟩ := play_shows spare (start_shows spare size) moves
      have still := ih (fun move member => none move (List.mem_append_left _ member)) before
      have quiet := cancelling_step listeners ((start listeners farm size).play listeners moves)
        (none move (List.mem_append_right _ (.head _)))
      have spared : listeners.SpareCursor
          ((start listeners farm size).play listeners moves).number := by
        rw [number_play]
        exact spare
      rw [play_append] at shows
      obtain ⟨r, after, moved⟩ := step_shows spared before move
      have cursor := Option.some.inj (shows.cursor.symm.trans after.cursor)
      have free : r.cancelling = .none := by
        rw [← after.cancelling, quiet, before.cancelling, still.1]
      refine ⟨shows.cancelling.symm.trans (after.cancelling.trans free), ?_⟩
      rw [cursor]
      rcases moved with rfl | advance
      · exact still.2
      · exact (advance.cancelled_eq still.1 free).trans still.2

/-- Workers that keep a scene of the height of the render skip no row. -/
theorem play_unskipped (steady : Scene.Steady σ) {moves : List (Move ε σ)}
    (retained : ∀ before, before <+: moves →
      ∀ worker ∈ ((start listeners farm size).play listeners before).farm.workers,
        worker.Retains size.height)
    (id : Nat) (row : UInt32) :
    .skipped id row ∉ ((start listeners farm size).play listeners moves).history := by
  induction moves using List.reverseRecOn with
  | nil => exact List.not_mem_nil
  | append_singleton moves move ih =>
      have before := ih fun before isBefore => retained before (isBefore.trans (List.prefix_append ..))
      intro member
      rw [play_append] at member
      obtain ⟨p, shows, lawful, -⟩ := play_lawful spare size moves
      exact before (skipped_of_step shows lawful.toRegular steady
        (retained moves (List.prefix_append ..)) member)

/-- Without a cancel, and without losing a row, drivers of workers that keep a scene as high as the render
have published all rows when they have stopped. -/
theorem play_count_lines (steady : Scene.Steady σ) {moves : List (Move ε σ)}
    (uncancelled : ∀ move ∈ moves, move.isCancel = false)
    (unlost : ∀ id row, .lost id row ∉ ((start listeners farm size).play listeners moves).history)
    (retained : ∀ before, before <+: moves →
      ∀ worker ∈ ((start listeners farm size).play listeners before).farm.workers,
        worker.Retains size.height)
    (driven : 0 < ((start listeners farm size).play listeners moves).drivers.length)
    (stopped : ((start listeners farm size).play listeners moves).drivers.all RowDriver.isStopped)
    (row : UInt32) :
    (lines ((start listeners farm size).play listeners moves).history).count row =
      if row < size.height then 1 else 0 := by
  have unskipped := play_unskipped spare size steady retained
  obtain ⟨p, shows, lawful, -⟩ := play_lawful spare size moves
  rw [shows.history] at unlost unskipped ⊢
  rw [shows.drivers] at driven stopped
  split
  · next inside =>
    exact lawful.count_lines (play_uncancelled spare size uncancelled shows) unlost unskipped driven
      stopped (UInt32.lt_iff_toNat_lt.1 inside)
  · next outside =>
    rw [List.count_eq_zero]
    intro member
    obtain ⟨id, colors, published⟩ := mem_lines.1 member
    have claimed := mem_claims.2 ⟨id, lawful.claimed_of_published published⟩
    exact outside (UInt32.lt_iff_toNat_lt.2 (lawful.banded.mem_claims.1 claimed).2)

end Play

end Rendering

end RenderFarm
