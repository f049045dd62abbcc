import RenderFarm.Proofs.RenderCall.Progress

/-!
# What is left to do after a cancel

A cancel of a render returns either to another thread, with its last access, or to a listener that made
all accesses while it was called. From then on no driver claims a row, and each publishes at most the
row that it has in hand, wherever it stands. If no worker is lost and all keep their scene, the rows
published are at last the top rows, as many as the report counts (`bounded_by_cancel`).
-/

namespace RenderFarm

open Occurrence RenderFarm.Language

/-- When no row was skipped or lost, drivers that have stopped have published what they claimed. -/
theorem Progress.Regular.perm_lines {height : Nat} {p : Progress} (regular : p.Regular height)
    (unskipped : ∀ id row, .skipped id row ∉ p.history)
    (unlost : ∀ id row, .lost id row ∉ p.history)
    (stopped : p.drivers.all RowDriver.isStopped = true) :
    (lines p.history).Perm (claims p.history) := by
  refine (List.perm_ext_iff_of_nodup regular.nodup_lines regular.banded.nodup_claims).2
    fun row => ⟨fun published => ?_, fun claimed => ?_⟩
  · exact regular.claimed_of_settled ((lines_sublist_settled p.history).subset published)
  · by_contra unpublished
    obtain ⟨id, lost⟩ := (regular.unpublished_iff unskipped stopped claimed).1 unpublished
    exact unlost id row lost

namespace RenderCall

variable {ε σ Audience : Type} [Scene σ] [Evaluator ε σ] {listeners : Listeners ε σ Audience}

variable (listeners) in
/-- A cancel of the render returns in a move: the cancel under way makes its last access, or a listener
has made all accesses of a cancel. -/
def CancelReturns (call : RenderCall ε σ Audience) (move : Move ε σ Audience) : Prop :=
  (move = .cancel ∧ call.rendering.cancelling = some .raise) ∨
    ∃ cursor, call.rendering.cursor? = some cursor ∧
      (call.step listeners move).rendering.cursor? = some cursor.cancel

/-- When a cancel has returned, the flag is up. -/
theorem CancelReturns.sealed {call : RenderCall ε σ Audience} {move : Move ε σ Audience}
    (returns : call.CancelReturns listeners move) {size : Dimensions} {p q : Progress}
    (before : call.Runs size p) (after : (call.step listeners move).Runs size q) : q.Sealed := by
  have raised : q.cursor.cancelled = true := by
    have cursor := after.shows.cursor
    rcases returns with ⟨rfl, last⟩ | ⟨taken, -, all⟩
    · have there := before.shows.cursor
      have exposed : call.isExposed = true := by simp [isExposed, last]
      simp only [step, exposed, if_true, Rendering.step, there, Option.map_some, Option.getD_some,
        Rendering.cancel, last] at cursor
      rw [Rendering.cursor?] at cursor
      have raised := Rendering.cursor?_setCursor there p.cursor.raise
      rw [Rendering.cursor?] at raised
      rw [← Option.some.inj (raised.symm.trans cursor)]
      rfl
    · rw [← Option.some.inj (all.symm.trans cursor)]
      rfl
  exact ⟨raised, after.sound.sunken (.inr raised)⟩

/-- What is on record after a move was so before, is a publication, or was put there by a driver that
was not publishing. -/
theorem noted_of_step {size : Dimensions} {call : RenderCall ε σ Audience} {p : Progress}
    (runs : call.Runs size p) {move : Move ε σ Audience} {occurrence : Occurrence}
    (member : occurrence ∈ (call.step listeners move).rendering.history) :
    occurrence ∈ call.rendering.history ∨
      (∃ id row colors, occurrence = .published id row colors) ∨
      ∃ id, move = .drive id ∧
        occurrence ∈ (call.rendering.step listeners (.drive id)).history := by
  cases move with
  | drive id =>
      simp only [step, drive] at member
      split at member
      · next telling told =>
        split at member
        · exact .inl member
        · obtain ⟨driver, row, colors, found, phase, -⟩ :=
            Progress.exists_of_line? (runs.told id telling told)
          rw [← runs.shows.drivers] at found
          simp only [Rendering.conclude, setFarm, tell, found, phase] at member
          rcases List.mem_append.1 member with before | now
          · exact .inl before
          · exact .inr (.inl ⟨id, row, colors, List.mem_singleton.1 now⟩)
      · split at member
        · exact .inl member
        · exact .inr (.inr ⟨id, rfl, member⟩)
  | cancel =>
      obtain ⟨farm, cancelling, stepped⟩ := Rendering.step_cancel listeners call.rendering
      simp only [step] at member
      split at member
      · rw [stepped] at member
        exact .inl member
      · exact .inl member
  | close =>
      left
      obtain ⟨closing, stepped⟩ := Rendering.step_close listeners call.rendering
      simp only [step, close] at member
      split at member
      · split at member <;> exact member
      · split at member
        · rwa [stepped] at member
        · exact member
        · exact member
      · split at member <;> exact member
      · exact member
  | meanwhile change => exact .inl member

section Play

variable {farm : Farm ε σ Audience} (lenient : listeners.MayCancel farm.cursors.size)
  (size : Dimensions)
include lenient

theorem play_runs {moves : List (Move ε σ Audience)}
    (spares : ∀ move ∈ moves, move.Spares farm.cursors.size) :
    ∃ p, ((start farm size).play listeners moves).Runs size p :=
  have ⟨p, runs, _⟩ := (start_runs farm size).play lenient spares
  ⟨p, runs⟩

/-- Workers that keep a scene of the height of the render skip no row. -/
theorem play_unskipped (steady : Scene.Steady σ) {moves : List (Move ε σ Audience)}
    (spares : ∀ move ∈ moves, move.Spares farm.cursors.size)
    (retained : ∀ before, before <+: moves →
      ∀ worker ∈ ((start farm size).play listeners before).farm.workers,
        worker.Retains size.height)
    (id : Nat) (row : UInt32) :
    .skipped id row ∉ ((start farm size).play listeners moves).rendering.history := by
  induction moves using List.reverseRecOn with
  | nil => exact List.not_mem_nil
  | append_singleton moves move ih =>
      have spared := fun move member => spares move (List.mem_append_left _ member)
      have before := ih spared
        fun before isBefore => retained before (isBefore.trans (List.prefix_append ..))
      intro member
      obtain ⟨p, runs⟩ := play_runs lenient size spared
      rw [play_append] at member
      rcases noted_of_step runs member with already | ⟨_, _, _, published⟩ | ⟨other, rfl, driven⟩
      · exact before already
      · cases published
      · exact before (Rendering.skipped_of_step runs.shows runs.sound.regular steady
          (retained moves (List.prefix_append ..)) driven)

end Play

/-- What a cancel bounds, when it has returned: no row is claimed any more, and what is still published
was claimed before, at most one row by each driver. If no worker is lost and all keep a scene as high
as the render, the rows published when it returns are the top rows, and the report counts them. -/
theorem bounded_by_cancel (listeners : Listeners ε σ Audience) (farm : Farm ε σ Audience)
    (size : Dimensions) (before rest : List (Move ε σ Audience)) (move : Move ε σ Audience)
    (lenient : listeners.MayCancel farm.cursors.size)
    (spares : ∀ other ∈ before ++ move :: rest, other.Spares farm.cursors.size)
    (returns : ((start farm size).play listeners before).CancelReturns listeners move) :
    let cancelled := ((start farm size).play listeners (before ++ [move])).rendering
    let after := (start farm size).play listeners (before ++ move :: rest)
    claims after.rendering.history = claims cancelled.history ∧
      (∃ later, after.rendering.history = cancelled.history ++ later ∧
        (∀ id row colors, .published id row colors ∈ later →
          .claimed id row ∈ cancelled.history) ∧
        ∀ id, (lines (byDriver id later)).length ≤ 1) ∧
      (Scene.Steady σ → (∀ id row, .lost id row ∉ after.rendering.history) →
        (∀ moves, moves <+: before ++ move :: rest →
          ∀ worker ∈ ((start farm size).play listeners moves).farm.workers,
            worker.Retains size.height) →
        ∀ summary, after.stage = .returned summary →
          ∃ low ≤ size.height.toNat,
            (lines after.rendering.history).Nodup ∧
            (∀ row, row ∈ lines after.rendering.history ↔
              low ≤ row.toNat ∧ row.toNat < size.height.toNat) ∧
            summary.rowsComputed = size.height.toNat - low) := by
  intro cancelled after
  have parted : before ++ move :: rest = before ++ [move] ++ rest := by simp
  obtain ⟨p, begun⟩ := play_runs lenient size
    fun other member => spares other (List.mem_append_left _ member)
  have numbered : ((start farm size).play listeners before).rendering.number = farm.cursors.size :=
    number_play listeners _ before
  have spare : move.Spares ((start farm size).play listeners before).rendering.number :=
    numbered ▸ spares move (by simp)
  obtain ⟨q, ended, -⟩ := begun.step (numbered ▸ lenient) spare
  have done := returns.sealed begun ended
  have stepped : ((start farm size).play listeners before).step listeners move =
      (start farm size).play listeners (before ++ [move]) := by
    rw [play_append]
    rfl
  rw [stepped] at ended
  have numbered' : ((start farm size).play listeners (before ++ [move])).rendering.number =
      farm.cursors.size := number_play listeners _ _
  have spare' : ∀ other ∈ rest, other.Spares
      ((start farm size).play listeners (before ++ [move])).rendering.number :=
    numbered' ▸ fun other member => spares other (by simp [member])
  obtain ⟨r, last, stirs⟩ := ended.play (numbered' ▸ lenient) spare'
  rw [← play_append, ← parted] at last
  have history : after.rendering.history = r.history := last.shows.history
  have history' : cancelled.history = q.history := ended.shows.history
  obtain ⟨-, later, further, none⟩ := stirs.sealed done
  obtain ⟨before', few⟩ := ended.sound.regular.published_after last.sound.regular further none
  refine ⟨?_, ⟨later, ?_, history' ▸ before', few⟩, ?_⟩
  · rw [history, history', further, claims_append, none, List.append_nil]
  · rw [history, history', further]
  · intro steady unlost retained summary returned
    have unskipped := play_unskipped lenient size steady spares retained
    have made : summary ∈ after.stage.summary? := by rw [returned]; rfl
    have regular := last.sound.regular
    have stopped := last.stopped made
    have all : (lines r.history).Perm (claims r.history) :=
      regular.perm_lines (fun id row => last.shows.history ▸ unskipped id row)
        (history ▸ unlost) stopped
    have within := regular.banded.within
    have counted : (r.drivers.map RowDriver.published).sum = (lines r.history).length :=
      regular.counted
    rw [history]
    refine ⟨size.height.toNat - (claims r.history).length, Nat.sub_le .., regular.nodup_lines,
      fun row => ?_, ?_⟩
    · rw [all.mem_iff, regular.banded.mem_claims]
    · rw [(last.reported summary made).2, counted, all.length_eq]
      omega

/-- Listeners that cancel the render when they hear of a line. -/
def hasty {ε σ Audience : Type} : Listeners ε σ Audience :=
  ⟨fun _ event farm => match event with
    | .lineComputed .. => farm.cancel.2
    | .sceneLoaded _ | .sceneRendered _ | .evalError _ | .stdoutWritten _ => farm,
    fun _ audience => audience⟩

/-- A call of cancel while the render is active makes all accesses of a cancel, and tells so. -/
theorem cancel_of_active {ε σ Audience : Type} {farm : Farm ε σ Audience} {render : Nat}
    {cursor : RowCursor} (active : farm.active = some render)
    (there : farm.cursors[render]? = some cursor) :
    farm.cancel.1 = true ∧ farm.cancel.2.cursors[render]? = some cursor.cancel := by
  simp [Farm.cancel, active, Farm.modifyCursor, Array.getElem?_modify, there]

theorem hasty_mayCancel {ε σ Audience : Type} (render : Nat) :
    (hasty : Listeners ε σ Audience).MayCancel render := by
  intro id event farm cursor there
  cases event with
  | sceneLoaded | sceneRendered | evalError | stdoutWritten => exact ⟨cursor, there, .inl rfl⟩
  | lineComputed row size colors =>
      by_cases active : farm.active = some render
      · exact ⟨_, (cancel_of_active active there).2, .inr rfl⟩
      · refine ⟨cursor, ?_, .inl rfl⟩
        simp only [hasty, Farm.cancel]
        split
        · next other found =>
          have different : other ≠ render := fun same => active (same ▸ found)
          simp [Farm.modifyCursor, Array.getElem?_modify, different, there]
        · exact there

/-- Two workers with a black picture of three rows, and one listener. -/
def blackTrio : Farm Bindings Picture Unit :=
  { Farm.start 0 ((Array.range 2).map fun id => .holding id .empty ⟨⟨1, 3⟩, .solid .black⟩) () with
    bus := (EventBus.empty.subscribe .render).2 }

/-- The two upper rows are claimed, and the first of them is about to be told to the listener. -/
def untilFirstLine : List (Move Bindings Picture Unit) :=
  [.close, .close, .drive 0, .drive 1, .drive 0, .drive 1, .drive 0, .drive 1, .drive 0]

/-- The drivers publish what they have in hand and stop, and the render returns. -/
def afterFirstLine : List (Move Bindings Picture Unit) :=
  [.drive 0, .drive 1, .drive 1, .drive 1, .drive 0, .drive 1,
    .close, .close, .close, .close, .close, .close]

/-- The listener cancels the render at the first line, and the other row in hand follows. -/
theorem hasty_listener_gets_two_rows :
    let after := (start blackTrio ⟨1, 3⟩).play hasty (untilFirstLine ++ .drive 0 :: afterFirstLine)
    after.stage = .returned ⟨2, true⟩ ∧ claims after.rendering.history = [2, 1] ∧
      ∀ row, row ∈ lines after.rendering.history ↔ 1 ≤ row.toNat ∧ row.toNat < 3 := by
  intro after
  have returned : after.stage = .returned ⟨2, true⟩ := by decide +kernel
  have history : after.rendering.history =
      [.claimed 0 2, .claimed 1 1, .published 0 2 [0], .published 1 1 [0]] := by decide +kernel
  have returns : ((start blackTrio ⟨1, 3⟩).play hasty untilFirstLine).CancelReturns hasty
      (.drive 0) :=
    .inr ⟨⟨⟨1, 3⟩, 0, 0, false⟩, by decide +kernel, by decide +kernel⟩
  have retained : ∀ moves ∈ (untilFirstLine ++ .drive 0 :: afterFirstLine).inits,
      ∀ worker ∈ ((start blackTrio ⟨1, 3⟩).play hasty moves).farm.workers, worker.Retains 3 := by
    decide +kernel
  have spares : ∀ move ∈ untilFirstLine ++ .drive 0 :: afterFirstLine, move.Spares 0 := by
    simp [untilFirstLine, afterFirstLine, Move.Spares]
  obtain ⟨claimed, -, published⟩ := bounded_by_cancel hasty blackTrio ⟨1, 3⟩ untilFirstLine
    afterFirstLine (.drive 0) (hasty_mayCancel _) spares returns
  obtain ⟨low, -, -, band, computed⟩ := published Picture.steady
    (fun id row => by rw [history]; simp)
    (fun moves isBefore => retained moves ((List.mem_inits _ _).2 isBefore)) _ returned
  have two : 2 = 3 - low := computed
  obtain rfl : low = 1 := by omega
  exact ⟨returned, claimed.trans (by decide +kernel), band⟩

end RenderCall

end RenderFarm
