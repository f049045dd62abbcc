import RenderFarm.Proofs.Rendering.Hearing

/-!
# What a render reports of a cancel

The report of a render is made from reads at its end. When all drivers have stopped, no row is
claimed any more, and once the flag is up, the record of abandoned rows is exact, whatever further
cancels do. So the report is right if the flag was up at the first read (`report_iff`). A cancel
that has taken the cursor and not yet raised the flag stops the drivers all the same, and is then
missing from the report (`unreported_cancel`).
-/

namespace RenderFarm

open Occurrence RenderFarm.Language

namespace Progress

/-- The flag stays up. -/
theorem Advance.cancelled_of_cancelled {p q : Progress} (advance : Advance p q)
    (raised : p.cursor.cancelled = true) : q.cursor.cancelled = true := by
  cases advance <;> first | exact raised | rfl

/-- A render whose report has begun, the flag being `flag` when it was first read. -/
structure Reporting (height : Nat) (flag : Bool) (p : Progress) : Prop where
  stopped : p.drivers.all RowDriver.isStopped = true
  raised : flag = true → p.cursor.cancelled = true
  closing : p.closing = .closed (flag && decide ((claims p.history).length < height)) ∨
    flag = true ∧ (p.closing = .reading ∨ p.closing = .counting true)

theorem Reporting.advance {height : Nat} {flag : Bool} {p q : Progress} (advance : Advance p q)
    (lawful : Lawful height p) (reporting : Reporting height flag p) :
    Reporting height flag q := by
  obtain ⟨drivers, history⟩ := advance.of_stopped reporting.stopped
  refine ⟨drivers ▸ reporting.stopped,
    fun flagged => advance.cancelled_of_cancelled (reporting.raised flagged), ?_⟩
  have closing := reporting.closing
  rw [history]
  cases advance with
  | read waiting => simp [waiting] at closing
  | reread reading =>
      simp only [reading, reduceCtorEq, false_or, true_or, and_true] at closing
      right
      simp [closing, reporting.raised closing]
  | @count flag' counting =>
      simp only [counting, reduceCtorEq, false_or, Closing.counting.injEq] at closing
      obtain ⟨flagged, rfl⟩ := closing
      have tally := lawful.tallied.raised (reporting.raised flagged)
      left
      simp only [flagged, RowCursor.remainingAfter, if_true, Bool.true_and, Closing.closed.injEq,
        decide_eq_decide]
      omega
  | test | claim | miss | receive | skip | lose | publish | take | record | raise => exact closing

/-- Rows are left exactly when fewer were claimed than there are. -/
theorem Banded.exists_unclaimed_iff {height : Nat} {p : Progress} (banded : Banded height p) :
    (∃ row : UInt32, row.toNat < height ∧ row ∉ claims p.history) ↔
      (claims p.history).length < height := by
  have bound : height < 2 ^ 32 := banded.size ▸ p.cursor.size.height.toNat_lt
  have within := banded.within
  constructor
  · rintro ⟨row, inside, unclaimed⟩
    rw [banded.mem_claims] at unclaimed
    omega
  · intro fewer
    have zero : (0 : UInt32).toNat = 0 := rfl
    exact ⟨0, by omega, by rw [banded.mem_claims]; omega⟩

/-- If rows are left though drivers have stopped without losing any, a cancel has taken the cursor:
the flag is up, or the cancel is still under way. -/
theorem Lawful.cancelling_of_unclaimed {height : Nat} {p : Progress} (lawful : Lawful height p)
    (driven : 0 < p.drivers.length) (stopped : p.drivers.all RowDriver.isStopped = true)
    (unlost : ∀ id row, .lost id row ∉ p.history) (fewer : (claims p.history).length < height)
    (down : p.cursor.cancelled = false) : p.cancelling.isSome := by
  cases under : p.cancelling with
  | some cancelling => rfl
  | none =>
      have halted : p.drivers[0].phase = .stopped := by
        have := List.all_eq_true.1 stopped _ (List.getElem_mem driven)
        simpa [RowDriver.isStopped] using this
      have all := lawful.length_claims ⟨under, down⟩ (List.getElem?_eq_getElem driven) halted
        (unlost 0)
      omega

end Progress

namespace Rendering

variable {ε σ Audience : Type} [Scene σ] [Evaluator ε σ]

/-- What the report will come to is settled when it begins. -/
theorem reporting_of_close {listeners : Listeners ε σ Audience} {farm : Farm ε σ Audience}
    {size : Dimensions} (spare : listeners.SpareCursor farm.cursors.size)
    (before rest : List (Move ε σ))
    (waiting : ((start listeners farm size).play listeners before).closing = .waiting)
    (stopped : ((start listeners farm size).play listeners before).drivers.all RowDriver.isStopped =
      true) :
    ∃ p q, ((start listeners farm size).play listeners before).Shows p ∧
      p.Lawful size.height.toNat ∧
      ((start listeners farm size).play listeners (before ++ .close :: rest)).Shows q ∧
      q.Reporting size.height.toNat p.cursor.cancelled ∧ q.history = p.history := by
  obtain ⟨p, shows, lawful, -⟩ := play_lawful spare size before
  have stoppedThere : p.drivers.all RowDriver.isStopped = true := shows.drivers ▸ stopped
  have read : p.Advance
      { p with closing := if p.cursor.cancelled then .reading else .closed false } :=
    .read (shows.closing ▸ waiting) stoppedThere
  have begun : (((start listeners farm size).play listeners before).step listeners .close).Shows
      { p with closing := if p.cursor.cancelled then .reading else .closed false } := by
    simp only [step, shows.cursor, Option.map_some, Option.getD_some, close, waiting, stopped,
      if_true]
    exact ⟨shows.cursor, shows.drivers, shows.cancelling, rfl, shows.history⟩
  have reporting : Progress.Reporting size.height.toNat p.cursor.cancelled
      { p with closing := if p.cursor.cancelled then .reading else .closed false } := by
    refine ⟨stoppedThere, fun flagged => flagged, ?_⟩
    cases p.cursor.cancelled <;> simp
  have spared : listeners.SpareCursor
      (((start listeners farm size).play listeners before).step listeners .close).number := by
    rw [number_step, number_play]
    exact spare
  obtain ⟨q, shown, leads⟩ := play_shows spared begun rest
  have kept : q.Lawful size.height.toNat ∧
      q.Reporting size.height.toNat p.cursor.cancelled ∧ q.history = p.history := by
    refine leads.keep (P := fun q => q.Lawful size.height.toNat ∧
      q.Reporting size.height.toNat p.cursor.cancelled ∧ q.history = p.history) ?_
      ⟨lawful.advance read, reporting, rfl⟩
    intro before after advance still
    obtain ⟨lawful, reporting, same⟩ := still
    exact ⟨lawful.advance advance, reporting.advance advance lawful,
      (advance.of_stopped reporting.stopped).2.trans same⟩
  refine ⟨p, q, shows, lawful, ?_, kept.2.1, kept.2.2⟩
  rwa [play_append]

/-- The report of a render, exactly: it tells of a cancel if the flag was up when it was first read
and some row was never claimed. Where no row was lost, rows that are left with the flag down are
those of a cancel under way at that moment. -/
theorem report_iff (listeners : Listeners ε σ Audience) (farm : Farm ε σ Audience)
    (size : Dimensions) (spare : listeners.SpareCursor farm.cursors.size)
    (before rest : List (Move ε σ)) (cancelled : Bool) :
    let ended := (start listeners farm size).play listeners before
    let last := (start listeners farm size).play listeners (before ++ .close :: rest)
    ended.closing = .waiting → ended.drivers.all RowDriver.isStopped = true →
    last.closing = .closed cancelled →
      (cancelled = true ↔ (∃ cursor ∈ ended.cursor?, cursor.cancelled = true) ∧
        ∃ row, row < size.height ∧ row ∉ claims last.history) ∧
      ((∀ cursor ∈ ended.cursor?, cursor.cancelled = false) → 0 < ended.drivers.length →
        (∀ id row, .lost id row ∉ last.history) →
        (∃ row, row < size.height ∧ row ∉ claims last.history) → ended.cancelling.isSome) := by
  intro ended last waiting stopped closed
  obtain ⟨p, q, shows, lawful, shown, reporting, same⟩ :=
    reporting_of_close spare before rest waiting stopped
  have history : last.history = p.history := shown.history.trans same
  have settled : cancelled =
      (p.cursor.cancelled && decide ((claims p.history).length < size.height.toNat)) := by
    have told := shown.closing.symm.trans closed
    rcases reporting.closing with result | ⟨-, reading | counting⟩
    · rw [result, same] at told
      exact (Closing.closed.inj told).symm
    · rw [reading] at told
      cases told
    · rw [counting] at told
      cases told
  have unclaimed := lawful.banded.exists_unclaimed_iff
  simp only [← UInt32.lt_iff_toNat_lt] at unclaimed
  have cursor : ended.cursor? = some p.cursor := shows.cursor
  rw [history, unclaimed, cursor]
  constructor
  · simp [settled]
  · intro down driven unlost fewer
    rw [shows.drivers] at driven stopped
    rw [shows.cancelling]
    exact lawful.cancelling_of_unclaimed driven stopped unlost fewer (down _ rfl)

/-- A cancel that is over before the first claim. -/
def promptCancel : List (Move Bindings Picture) :=
  [.drive 0, .drive 1, .cancel, .cancel, .cancel, .drive 0, .drive 1]

/-- Such a cancel is reported, and leaves a row that nobody claims. -/
theorem prompt_cancel_reported :
    let last := (start .silent blackPair ⟨1, 2⟩).play .silent
      (promptCancel ++ .close :: [.close, .close])
    last.closing = .closed true ∧ ∃ row < 2, row ∉ claims last.history := by
  intro last
  have closed : last.closing = .closed true := by decide +kernel
  have report := report_iff .silent blackPair ⟨1, 2⟩ (Listeners.silent_spareCursor _) promptCancel
    [.close, .close] true (by decide +kernel) (by decide +kernel) closed
  exact ⟨closed, (report.1.1 rfl).2⟩

/-- A cancel that has taken the cursor, and raises the flag when the report is made. -/
def tardyCancel : List (Move Bindings Picture) :=
  [.cancel, .drive 0, .drive 1, .drive 0, .drive 1, .close, .cancel, .cancel]

/-- No driver claims a row because the cancel took the cursor, and the report says nothing of it. -/
theorem unreported_cancel :
    let last := (start .silent blackPair ⟨1, 2⟩).play .silent tardyCancel
    last.closing = .closed false ∧ last.history = [] ∧
      last.cursor?.map RowCursor.cancelled = some true ∧
      last.cursor?.map (RowCursor.remaining ·) = some 2 := by
  decide +kernel

end Rendering

end RenderFarm
