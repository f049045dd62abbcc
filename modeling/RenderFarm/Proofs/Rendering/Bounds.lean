import Mathlib.Data.UInt
import RenderFarm.Proofs.Rendering.Hearing
import RenderFarm.Proofs.Rendering.Turns
import RenderFarm.Proofs.Text.Literals

/-!
# How far drivers can go

A claim gets a row or stops its driver, so there are no more claims than rows and drivers together
(`attempts_add_spent_le`). A claim that gets no row takes the cursor below zero, one further each time,
and a cancel moves it back up, so it is never further down than drivers have stopped (`Bounded`). Every
step takes a driver on towards its end, whatever the others do meanwhile (`Reaches.play`).
-/

namespace RenderFarm

open Occurrence

/-- Words of 32 bits add up to the word of the sum. -/
theorem sum_map_ofNat (counts : List Nat) :
    (counts.map UInt32.ofNat).sum = UInt32.ofNat counts.sum := by
  induction counts with
  | nil => rfl
  | cons count rest ih => rw [List.map_cons, List.sum_cons, List.sum_cons, ih, UInt32.ofNat_add]

/-! ## Drivers that have stopped -/

namespace RowDriver

/-- The number of drivers that have stopped. -/
def stoppedCount (drivers : List RowDriver) : Nat :=
  drivers.countP isStopped

theorem isStopped_iff {driver : RowDriver} : driver.isStopped = true ↔ driver.phase = .stopped :=
  beq_iff_eq

theorem stoppedCount_le_length (drivers : List RowDriver) : stoppedCount drivers ≤ drivers.length :=
  List.countP_le_length

/-- A driver that stops is counted from then on. -/
theorem stoppedCount_set {drivers : List RowDriver} {id : Nat} {driver : RowDriver}
    (found : drivers[id]? = some driver) (moving : driver.phase ≠ .stopped) (next : RowDriver) :
    stoppedCount (drivers.set id next) =
      stoppedCount drivers + if next.isStopped then 1 else 0 := by
  obtain ⟨inside, rfl⟩ := List.getElem?_eq_some_iff.1 found
  have other : ¬drivers[id].isStopped = true := mt isStopped_iff.1 moving
  rw [stoppedCount, List.countP_set inside, if_neg other, Nat.sub_zero, stoppedCount]

/-- While one driver is at work, not all have stopped. -/
theorem stoppedCount_lt {drivers : List RowDriver} {driver : RowDriver} (member : driver ∈ drivers)
    (moving : driver.phase ≠ .stopped) : stoppedCount drivers < drivers.length := by
  refine Nat.lt_of_le_of_ne (stoppedCount_le_length drivers) fun all => ?_
  exact moving (isStopped_iff.1 (List.countP_eq_length.1 all driver member))

end RowDriver

/-! ## Where the cursor can be -/

namespace Progress

/-- A position of the cursor that lies in a scene, or below it by no more than `stopped` failed
claims. -/
def Within (height stopped : Nat) (position : Int) : Prop :=
  -1 - (stopped : Int) ≤ position ∧ position ≤ height - 1

theorem Within.mono {height stopped more : Nat} {position : Int} (grows : stopped ≤ more)
    (within : Within height stopped position) : Within height more position := by
  unfold Within at *
  omega

/-- The cursor is no further below the scene than drivers have stopped, and so was any position that a
cancel has taken. -/
structure Bounded (height : Nat) (p : Progress) : Prop where
  next : Within height (RowDriver.stoppedCount p.drivers) p.cursor.next
  taken : ∀ position, p.cancelling = some (.record position) →
    Within height (RowDriver.stoppedCount p.drivers) position

theorem Bounded.start (size : Dimensions) (count : Nat) :
    Bounded size.height.toNat (.start size count) where
  next := by
    simp only [Within, Progress.start, RowCursor.start]
    omega
  taken := fun _ free => by cases free

theorem Advance.stoppedCount_le {p q : Progress} (advance : Advance p q) :
    RowDriver.stoppedCount p.drivers ≤ RowDriver.stoppedCount q.drivers := by
  rcases advance.drivers_cases with ⟨same, -⟩ | ⟨id, driver, next, -, found, moving, drivers, -⟩
  · rw [same]
  · rw [drivers, RowDriver.stoppedCount_set found moving]
    omega

theorem Bounded.advance {height : Nat} {p q : Progress} (advance : Advance p q)
    (bounded : Bounded height p) : Bounded height q := by
  have grows := advance.stoppedCount_le
  have next := bounded.next.mono grows
  have taken := fun position under => (bounded.taken position under).mono grows
  cases advance with
  | claim found phase got =>
      have inside := (RowCursor.claim_eq_some_iff.1 got).1
      refine ⟨?_, taken⟩
      simp only [Within, note, setDriver, RowCursor.claim] at next ⊢
      omega
  | @miss id driver found phase got =>
      -- The driver whose claim fails stops, which makes up for the step of the cursor.
      have below := RowCursor.claim_eq_none_iff.1 got
      have one := RowDriver.stoppedCount_set found (by simp [phase]) (driver.claimed none)
      have halted : (driver.claimed none).isStopped = true := RowDriver.isStopped_iff.2 rfl
      rw [if_pos halted] at one
      have before := bounded.next
      refine ⟨?_, taken⟩
      simp only [Within, setDriver, RowCursor.claim, one] at before ⊢
      omega
  | take free =>
      refine ⟨?_, fun position under => ?_⟩
      · simp only [Within, RowCursor.take]
        omega
      · cases under
        exact next
  | record under => exact ⟨next, fun _ other => by cases other⟩
  | raise under => exact ⟨next, fun _ other => by cases other⟩
  | test | receive | skip | lose | publish | read | reread | count => exact ⟨next, taken⟩

theorem Bounded.stir {height : Nat} {p q : Progress} (stir : Stir p q) (bounded : Bounded height p) :
    Bounded height q := by
  cases stir with
  | access advance => exact bounded.advance advance
  | halt =>
      refine ⟨?_, bounded.taken⟩
      simp only [Within, RowCursor.cancel, RowCursor.take, RowCursor.record, RowCursor.raise]
      omega
  | deploy count idle fresh waiting =>
      have grows : RowDriver.stoppedCount p.drivers ≤
          RowDriver.stoppedCount (List.replicate count RowDriver.start) := by
        rw [idle]
        exact Nat.zero_le _
      exact ⟨bounded.next.mono grows, fun position under => (bounded.taken position under).mono grows⟩

end Progress

/-- Whether a move is a step of the driver of worker `id`. -/
def Move.isDriveOf {ε σ : Type} (id : Nat) : Move ε σ → Bool
  | .drive other => other == id
  | .cancel | .close | .alter .. => false

namespace Rendering

variable {ε σ Audience : Type}

/-! ## Claims -/

/-- Whether a move is a claim: the driver that it moves is about to ask the cursor for a row. -/
def asks (rendering : Rendering ε σ Audience) : Move ε σ → Bool
  | .drive id => rendering.drivers[id]?.any fun driver => driver.phase == .claim
  | .cancel | .close | .alter .. => false

/-- The rows claimed and the drivers that have stopped. -/
def spent (rendering : Rendering ε σ Audience) : Nat :=
  (claims rendering.history).length + RowDriver.stoppedCount rendering.drivers

/-- A driver is done with no more rows than there are, and claims once more at most. -/
theorem position_lt {rendering : Rendering ε σ Audience} {p : Progress} {height : Nat}
    (shows : rendering.Shows p) (regular : p.Regular height) {id : Nat} {driver : RowDriver}
    (found : rendering.drivers[id]? = some driver) :
    rendering.position id < 4 * height + 2 := by
  have own : (claims (byDriver id p.history)).length ≤ (claims p.history).length :=
    (List.filter_sublist.filterMap _).length_le
  have within := regular.banded.within
  rw [regular.accounted id, List.length_append] at own
  simp only [Progress.held, ← shows.drivers, found, Option.map_some, Option.getD_some] at own
  simp only [position, shows.history, found, Option.map_some, Option.getD_some]
  cases phase : driver.phase <;>
    simp only [phase, Progress.inHand, List.length_nil, List.length_singleton,
      RowDriver.Phase.index] at own ⊢ <;> omega

variable [Scene σ] [Evaluator ε σ] (listeners : Listeners ε σ Audience)

/-- The number of claims among some moves. -/
def attempts : Rendering ε σ Audience → List (Move ε σ) → Nat
  | _, [] => 0
  | rendering, move :: rest =>
    (if rendering.asks move then 1 else 0) + attempts (rendering.step listeners move) rest

/-- A claim gets a row or is the last step of its driver. -/
theorem claimed_or_stopped (render id : Nat) {driver : RowDriver} (phase : driver.phase = .claim)
    (farm : Farm ε σ Audience) :
    let next := (Farm.stepDriver listeners render id driver farm).1
    (∃ row, RowDriver.occurrence? id driver.phase next.phase = some (.claimed id row)) ∨
      next.phase = .stopped := by
  intro next
  cases there : farm.cursors[render]? with
  | none => exact .inr (by simp only [next, Farm.stepDriver, there])
  | some cursor =>
      simp only [next, Farm.stepDriver, there, phase]
      cases cursor.claim.1 with
      | none => exact .inr rfl
      | some row => exact .inl ⟨row, rfl⟩

/-- A driver that has stopped takes no more steps. -/
theorem stepDriver_of_stopped (render id : Nat) {driver : RowDriver}
    (stopped : driver.phase = .stopped) (farm : Farm ε σ Audience) :
    (Farm.stepDriver listeners render id driver farm).1 = driver := by
  cases there : farm.cursors[render]? with
  | none => simp only [Farm.stepDriver, there, ← stopped]
  | some cursor => simp only [Farm.stepDriver, there, stopped]

theorem asks_add_spent_le_drive (rendering : Rendering ε σ Audience) (id : Nat) :
    (if rendering.asks (.drive id) then 1 else 0) + rendering.spent ≤
      (rendering.drive listeners id).spent := by
  cases found : rendering.drivers[id]? with
  | none => simp [asks, drive, found]
  | some driver =>
      have asking : rendering.asks (.drive id) = (driver.phase == .claim) := by simp [asks, found]
      rw [spent, spent, history_drive found, (drive_eq listeners found).2, claims_append,
        List.length_append, asking]
      by_cases stopped : driver.phase = .stopped
      · obtain ⟨inside, same⟩ := List.getElem?_eq_some_iff.1 found
        rw [stepDriver_of_stopped listeners _ _ stopped, stopped, ← same, List.set_getElem_self]
        simp
      · rw [RowDriver.stoppedCount_set found stopped]
        by_cases phase : driver.phase = .claim
        · rcases claimed_or_stopped listeners rendering.number id phase rendering.farm with
            ⟨row, got⟩ | halted
          · rw [got, phase, if_pos BEq.rfl, Option.toList_some, claims_singleton]
            simp only [claim?, Option.toList_some, List.length_singleton]
            omega
          · rw [RowDriver.isStopped_iff.2 halted, phase, if_pos BEq.rfl, if_pos rfl]
            omega
        · rw [if_neg (by simpa using phase)]
          omega

theorem asks_add_spent_le_step (rendering : Rendering ε σ Audience) (move : Move ε σ) :
    (if rendering.asks move then 1 else 0) + rendering.spent ≤
      (rendering.step listeners move).spent := by
  cases move with
  | drive id => exact asks_add_spent_le_drive listeners rendering id
  | cancel =>
      obtain ⟨farm, cancelling, stepped⟩ := step_cancel listeners rendering
      rw [stepped]
      simp [asks, spent]
  | close =>
      obtain ⟨closing, stepped⟩ := step_close listeners rendering
      rw [stepped]
      simp [asks, spent]
  | alter id worker => simp [asks, spent, step]

/-- Each claim is accounted for by a row or by a driver that has stopped. -/
theorem attempts_add_spent_le (rendering : Rendering ε σ Audience) (moves : List (Move ε σ)) :
    attempts listeners rendering moves + rendering.spent ≤
      (rendering.play listeners moves).spent := by
  induction moves generalizing rendering with
  | nil => exact Nat.le_of_eq (Nat.zero_add _)
  | cons move rest ih =>
      have first := asks_add_spent_le_step listeners rendering move
      have later := ih (rendering.step listeners move)
      have whole : rendering.play listeners (move :: rest) =
          (rendering.step listeners move).play listeners rest := rfl
      rw [whole, attempts]
      omega

/-! ## Steps -/

variable {listeners} {rendering : Rendering ε σ Audience}

/-- A step of its own takes a driver further, and no other move sets it back. -/
theorem Reaches.step {id goal : Nat} (reaches : rendering.Reaches id goal) (move : Move ε σ) :
    (rendering.step listeners move).Reaches id (goal + if move.isDriveOf id then 1 else 0) := by
  cases move with
  | drive other =>
      by_cases same : other = id
      · subst same
        rw [Move.isDriveOf, BEq.rfl, if_pos rfl]
        exact reaches.drive_self
      · rw [Move.isDriveOf, beq_false_of_ne same]
        exact reaches.drive_of_ne same
  | cancel =>
      obtain ⟨farm, cancelling, stepped⟩ := step_cancel listeners rendering
      rw [stepped]
      exact reaches
  | close =>
      obtain ⟨closing, stepped⟩ := step_close listeners rendering
      rw [stepped]
      exact reaches
  | alter id worker => exact reaches

/-- A driver has come as far as it has taken steps, unless it has stopped. -/
theorem Reaches.play {id goal : Nat} (reaches : rendering.Reaches id goal) (moves : List (Move ε σ)) :
    (rendering.play listeners moves).Reaches id (goal + moves.countP (Move.isDriveOf id)) := by
  induction moves generalizing rendering goal with
  | nil => exact reaches
  | cons move rest ih =>
      have first : (rendering.step listeners move).Reaches id _ := reaches.step move
      have later := ih first
      rwa [Nat.add_right_comm, Nat.add_assoc, ← List.countP_cons] at later

/-! ## Runs -/

theorem play_bounded {farm : Farm ε σ Audience} (lenient : listeners.MayCancel farm.cursors.size)
    (size : Dimensions) (moves : List (Move ε σ)) :
    ∃ p, ((start listeners farm size).play listeners moves).Shows p ∧
      p.Regular size.height.toNat ∧ p.Bounded size.height.toNat := by
  obtain ⟨p, shows, stirs⟩ := run_stirs lenient size moves
  exact ⟨p, shows, stirs.keep Progress.Regular.stir (.start size _),
    stirs.keep Progress.Bounded.stir (.start size _)⟩

/-- However the steps of drivers and of cancels interleave, and whatever workers answer: a driver that
has had `4 * height + 2` turns has stopped; the drivers make no more claims than there are rows and
drivers together; the cursor stays between `-1 - count` and `height - 1`, where `count` is the number of
drivers, and so does a position that a cancel has taken. If a signed word of 64 bits holds `count`, it
also holds the cursor that a claim leaves, and the number of rows left at any position. No more lines
are published than there are rows, so words of 32 bits are enough to add up what drivers have counted. -/
theorem drivers_stop_within_bounds (listeners : Listeners ε σ Audience) (farm : Farm ε σ Audience)
    (size : Dimensions) (moves : List (Move ε σ)) (lenient : listeners.MayCancel farm.cursors.size) :
    let height := size.height.toNat
    let after := (start listeners farm size).play listeners moves
    let count := after.drivers.length
    (∀ id < count, 4 * height + 2 ≤ moves.countP (Move.isDriveOf id) →
      ∃ driver ∈ after.drivers[id]?, driver.phase = .stopped) ∧
    attempts listeners (start listeners farm size) moves ≤ height + count ∧
    (∃ cursor ∈ after.cursor?,
      (-1 - (count : Int) ≤ cursor.next ∧ cursor.next ≤ height - 1) ∧
      (count < 2 ^ 63 → Text.inInt64 (cursor.next + 1) = true ∧
        ∀ driver ∈ after.drivers, driver.phase = .claim → Text.inInt64 (cursor.next - 1) = true)) ∧
    (∀ position, after.cancelling = some (.record position) →
      (-1 - (count : Int) ≤ position ∧ position ≤ height - 1) ∧
      (count < 2 ^ 63 → Text.inInt64 (position + 1) = true)) ∧
    (after.drivers.map RowDriver.published).sum ≤ height ∧
    (after.drivers.map fun driver => UInt32.ofNat driver.published).sum.toNat =
      (after.drivers.map RowDriver.published).sum := by
  intro height after count
  obtain ⟨p, shows, regular, bounded⟩ := play_bounded lenient size moves
  have drivers : after.drivers = p.drivers := shows.drivers
  have history : after.history = p.history := shows.history
  have small : height < 2 ^ 32 := size.height.toNat_lt
  have few : RowDriver.stoppedCount p.drivers ≤ count :=
    drivers ▸ RowDriver.stoppedCount_le_length after.drivers
  have next := bounded.next.mono few
  have published : (after.drivers.map RowDriver.published).sum ≤ height := by
    rw [drivers, regular.counted]
    exact regular.length_lines_le
  refine ⟨fun id inside often => ?_, ?_, ⟨p.cursor, shows.cursor, next, fun fits => ⟨?_, ?_⟩⟩, ?_,
    published, ?_⟩
  · have begun : (start listeners farm size).Reaches id 0 :=
      ⟨_, List.getElem?_eq_getElem (length_drivers_play listeners _ moves ▸ inside),
        .inr (Nat.zero_le _)⟩
    obtain ⟨driver, found, stopped | far⟩ := begun.play moves
    · exact ⟨driver, found, stopped⟩
    · have near := position_lt shows regular found
      omega
  · have paid : attempts listeners (start listeners farm size) moves +
        (start listeners farm size).spent ≤ after.spent := attempts_add_spent_le listeners _ moves
    have rows := regular.banded.within
    have all : after.spent = (claims p.history).length + RowDriver.stoppedCount p.drivers := by
      rw [spent, drivers, history]
    omega
  · obtain ⟨low, high⟩ := next
    rw [Text.inInt64_iff]
    omega
  · -- A driver that claims has not stopped, and its claim may be the last to move the cursor.
    intro driver member phase
    have fewer : RowDriver.stoppedCount p.drivers < count :=
      drivers ▸ RowDriver.stoppedCount_lt member (by simp [phase])
    obtain ⟨low, -⟩ := bounded.next
    obtain ⟨-, high⟩ := next
    rw [Text.inInt64_iff]
    omega
  · intro position under
    have taken := (bounded.taken position (shows.cancelling ▸ under)).mono few
    refine ⟨taken, fun fits => ?_⟩
    obtain ⟨low, high⟩ := taken
    rw [Text.inInt64_iff]
    omega
  · have words := sum_map_ofNat (after.drivers.map RowDriver.published)
    rw [List.map_map] at words
    rw [show (fun driver : RowDriver => UInt32.ofNat driver.published) =
      UInt32.ofNat ∘ RowDriver.published from rfl, words, UInt32.toNat_ofNat']
    exact Nat.mod_eq_of_lt (Nat.lt_of_le_of_lt published small)

/-- Two drivers that have had all their turns, and a cancel that then takes the cursor. -/
def exhaustion : List (Move Language.Bindings Language.Picture) :=
  (List.replicate 10 [.drive 0, .drive 1]).flatten ++ [.cancel]

/-- With two rows and two drivers there are four claims, and the two that fail leave the cursor as low
as it can be. -/
theorem exhaustion_attains_bounds :
    let after := (start .silent blackPair ⟨1, 2⟩).play .silent exhaustion
    10 ≤ exhaustion.countP (Move.isDriveOf 1) ∧
      (∃ driver ∈ after.drivers[1]?, driver.phase = .stopped) ∧
      attempts .silent (start .silent blackPair ⟨1, 2⟩) exhaustion = 4 ∧
      after.cancelling = some (.record (-3)) ∧ -1 - (after.drivers.length : Int) ≤ -3 ∧
      Text.inInt64 (-3 + 1) = true := by
  intro after
  have often : 10 ≤ exhaustion.countP (Move.isDriveOf 1) := by decide
  have two : after.drivers.length = 2 := by decide +kernel
  have under : after.cancelling = some (.record (-3)) := by decide +kernel
  have four : 4 ≤ attempts .silent (start .silent blackPair ⟨1, 2⟩) exhaustion := by decide +kernel
  obtain ⟨stops, claims, -, taken, -⟩ := drivers_stop_within_bounds .silent blackPair ⟨1, 2⟩
    exhaustion (Listeners.silent_spareCursor _).mayCancel
  have most : attempts .silent (start .silent blackPair ⟨1, 2⟩) exhaustion ≤
      2 + after.drivers.length := claims
  obtain ⟨⟨low, -⟩, word⟩ := taken _ under
  have few : after.drivers.length < 2 ^ 63 := by omega
  exact ⟨often, stops 1 (by change 1 < after.drivers.length; omega) often, by omega, under, low,
    word few⟩

end Rendering

end RenderFarm
