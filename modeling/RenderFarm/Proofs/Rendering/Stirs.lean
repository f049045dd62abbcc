import RenderFarm.Proofs.Rendering.Coverage

/-!
# Cancels in one piece

A listener that cancels a render does so while it is called, in one piece, whatever other cancel may
be under way. `Stir` adds such halts to the accesses, and the step that puts the drivers to work once
the scene is announced. All that is `Regular` survives them, so a render that listeners may cancel is
sound at every moment (`play_sound`). Once the flag is up and the cursor below zero, which every cancel
sees to (`Sunken`), no row is claimed any more (`Stirs.sealed`), and what drivers still publish is what
they have in hand (`Regular.published_after`).
-/

namespace RenderFarm

open Occurrence

namespace Progress

/-- What happens to a render, seen from its cursor. -/
inductive Stir : Progress → Progress → Prop
  | access {p q : Progress} : Advance p q → Stir p q
  | halt {p : Progress} : Stir p { p with cursor := p.cursor.cancel }
  | deploy {p : Progress} (count : Nat) :
    p.drivers = [] → p.history = [] → p.closing = .waiting →
    Stir p { p with drivers := List.replicate count RowDriver.start }

abbrev Stirs : Progress → Progress → Prop :=
  Relation.ReflTransGen Stir

theorem Stirs.keep {P : Progress → Prop} (kept : ∀ {p q}, Stir p q → P p → P q)
    {p q : Progress} (stirs : Stirs p q) (holds : P p) : P q :=
  keep_many stirs kept holds

theorem Regular.stir {height : Nat} {p q : Progress} (stir : Stir p q)
    (regular : Regular height p) : Regular height q := by
  cases stir with
  | access advance => exact regular.advance advance
  | halt =>
      obtain ⟨banded, accounted, grounded, counted, forsaken, closed⟩ := regular
      exact ⟨⟨banded.size, banded.rows, banded.within, fun inside => by cases inside⟩, accounted,
        fun id driver found stopped => .inl rfl, counted, ⟨forsaken.stopped, forsaken.once⟩, closed⟩
  | deploy count idle fresh waiting =>
      -- Nothing has happened, so all is as it is at the start.
      obtain ⟨cursor, drivers, cancelling, closing, history⟩ := p
      subst idle fresh waiting
      have banded := regular.banded
      refine ⟨⟨banded.size, banded.rows, banded.within, banded.next⟩,
        Accounted.start cursor.size count, fun id driver found stopped => ?_,
        Counted.start cursor.size count, ⟨fun _ _ none => (by cases none), .nil⟩, .inl rfl⟩
      rw [List.eq_of_mem_replicate (List.mem_of_getElem? found)] at stopped
      cases stopped

/-- A render keeps its size. -/
theorem Stir.size_eq {p q : Progress} (stir : Stir p q) : q.cursor.size = p.cursor.size := by
  cases stir with
  | access advance => exact advance.size_eq
  | halt | deploy => rfl

/-- A cancel takes the cursor before it raises the flag. -/
def Sunken (p : Progress) : Prop :=
  p.cancelling.isSome ∨ p.cursor.cancelled = true → p.cursor.next < 0

theorem Sunken.start (size : Dimensions) (count : Nat) : Sunken (.start size count) := by
  rintro (under | raised)
  · cases under
  · cases raised

theorem Sunken.stir {p q : Progress} (stir : Stir p q) (sunken : Sunken p) : Sunken q := by
  cases stir with
  | access advance =>
      cases advance with
      | claim found phase got | miss found phase got =>
          intro begun
          have below := sunken begun
          simp only [note, setDriver, RowCursor.claim]
          omega
      | take => exact fun _ => by simp [RowCursor.take]
      | record under => exact fun _ => sunken (.inl (by simp [under]))
      | raise under => exact fun _ => sunken (.inl (by simp [under]))
      | test | receive | skip | lose | publish | read | reread | count => exact sunken
  | halt => exact fun _ => by simp [RowCursor.cancel, RowCursor.take, RowCursor.record,
      RowCursor.raise]
  | deploy => exact sunken

/-- A render of which a cancel has returned. -/
structure Sealed (p : Progress) : Prop where
  raised : p.cursor.cancelled = true
  below : p.cursor.next < 0

/-- After a cancel has returned, no claim succeeds. -/
theorem Sealed.stir {p q : Progress} (stir : Stir p q) (done : Sealed p) :
    Sealed q ∧ ∃ later, q.history = p.history ++ later ∧ claims later = [] := by
  obtain ⟨raised, below⟩ := done
  cases stir with
  | access advance =>
      cases advance with
      | claim found phase got =>
          have inside := (RowCursor.claim_eq_some_iff.1 got).1
          omega
      | miss found phase got =>
          refine ⟨⟨raised, ?_⟩, [], (List.append_nil _).symm, rfl⟩
          simp only [setDriver, RowCursor.claim]
          omega
      | take => exact ⟨⟨raised, by simp [RowCursor.take]⟩, [], (List.append_nil _).symm, rfl⟩
      | raise => exact ⟨⟨rfl, below⟩, [], (List.append_nil _).symm, rfl⟩
      | test | receive | record | read | reread | count =>
          exact ⟨⟨raised, below⟩, [], (List.append_nil _).symm, rfl⟩
      | skip | lose | publish => exact ⟨⟨raised, below⟩, [_], rfl, rfl⟩
  | halt => exact ⟨⟨rfl, by simp [RowCursor.cancel, RowCursor.take, RowCursor.record,
      RowCursor.raise]⟩, [], (List.append_nil _).symm, rfl⟩
  | deploy => exact ⟨⟨raised, below⟩, [], (List.append_nil _).symm, rfl⟩

theorem Stirs.sealed {p q : Progress} (stirs : Stirs p q) (done : Sealed p) :
    Sealed q ∧ ∃ later, q.history = p.history ++ later ∧ claims later = [] := by
  induction stirs with
  | refl => exact ⟨done, [], (List.append_nil _).symm, rfl⟩
  | tail _ stir ih =>
      obtain ⟨still, before, history, none⟩ := ih
      obtain ⟨last, later, further, nothing⟩ := still.stir stir
      refine ⟨last, before ++ later, ?_, ?_⟩
      · rw [further, history, List.append_assoc]
      · rw [claims_append, none, nothing, List.append_nil]

theorem length_held_le (p : Progress) (id : Nat) : (p.held id).length ≤ 1 := by
  unfold held
  cases p.drivers[id]? with
  | none => exact Nat.zero_le 1
  | some driver => cases phase : driver.phase <;> simp [phase, inHand]

/-- What is published while nothing is claimed was claimed before, and is at most one row of each
driver. -/
theorem Regular.published_after {height : Nat} {p q : Progress} (before : Regular height p)
    (after : Regular height q) {later : List Occurrence} (history : q.history = p.history ++ later)
    (none : claims later = []) :
    (∀ id row colors, .published id row colors ∈ later → .claimed id row ∈ p.history) ∧
      ∀ id, (lines (byDriver id later)).length ≤ 1 := by
  constructor
  · intro id row colors published
    have claimed : .claimed id row ∈ q.history :=
      after.claimed_of_published (by rw [history]; exact List.mem_append_right _ published)
    rw [history, List.mem_append] at claimed
    refine claimed.resolve_right fun now => ?_
    have member : row ∈ claims later := mem_claims.2 ⟨id, now⟩
    rw [none] at member
    cases member
  · intro id
    have nothing : claims (byDriver id later) = [] :=
      List.sublist_nil.1 (none ▸ (List.filter_sublist.filterMap _ :
        (claims (byDriver id later)).Sublist (claims later)))
    have own := after.accounted id
    rw [history, byDriver_append, claims_append, settled_append, nothing, List.append_nil,
      before.accounted id, List.append_assoc, List.append_cancel_left_eq] at own
    have lengths := congrArg List.length own
    rw [List.length_append] at lengths
    have within := (lines_sublist_settled (byDriver id later)).length_le
    have hand := p.length_held_le id
    omega

/-- What holds of a render whose listeners may cancel it. -/
structure Sound (size : Dimensions) (p : Progress) : Prop where
  regular : p.Regular size.height.toNat
  sunken : p.Sunken
  sized : p.cursor.size = size

theorem Sound.start (size : Dimensions) (count : Nat) : Sound size (.start size count) :=
  ⟨.start size count, .start size count, rfl⟩

theorem Sound.stirs {size : Dimensions} {p q : Progress} (stirs : p.Stirs q)
    (sound : p.Sound size) : q.Sound size :=
  stirs.keep (fun stir before => ⟨before.regular.stir stir, before.sunken.stir stir,
    (stir.size_eq).trans before.sized⟩) sound

end Progress

namespace Rendering

variable {ε σ Audience : Type} {listeners : Listeners ε σ Audience}

/-- A render starts at the start, unless a listener cancels it at once. -/
theorem start_stirs {farm : Farm ε σ Audience} (lenient : listeners.MayCancel farm.cursors.size)
    (size : Dimensions) :
    ∃ p, (start listeners farm size).Shows p ∧
      (Progress.start size (start listeners farm size).drivers.length).Stirs p := by
  have begun : (farm.beginRender size).2.cursors[farm.cursors.size]? = some (.start size) := by
    simp only [Farm.beginRender, Array.getElem?_push_size]
  obtain ⟨cursor, there, left⟩ :=
    (lenient.lasting (.start size)).publish (.sceneLoaded size) ⟨_, begun, .inl rfl⟩
  refine ⟨{ Progress.start size (start listeners farm size).drivers.length with cursor := cursor },
    ⟨there, ?_, rfl, rfl, rfl⟩, ?_⟩
  · simp only [start, Progress.start, List.length_replicate]
  · rcases left with rfl | rfl
    · exact .refl
    · exact .single .halt

variable [Scene σ] [Evaluator ε σ]

/-- A step of a driver, before which listeners may have cancelled. -/
theorem drive_stirs {rendering : Rendering ε σ Audience} {p : Progress}
    (lenient : listeners.MayCancel rendering.number) (shows : rendering.Shows p) (id : Nat) :
    ∃ q, (rendering.drive listeners id).Shows q ∧ p.Stirs q := by
  obtain ⟨cursor, q, left, shown, moved⟩ :=
    drive_shows_after (lenient.lasting p.cursor) (.inl rfl) shows id
  refine ⟨q, shown, ?_⟩
  rcases moved with rfl | advance
  · exact .refl
  · rcases left with rfl | rfl
    · exact .single (.access advance)
    · exact .tail (.single .halt) (.access advance)

/-- A move of any kind, before which listeners may have cancelled. -/
theorem step_stirs {rendering : Rendering ε σ Audience} {p : Progress}
    (lenient : listeners.MayCancel rendering.number) (shows : rendering.Shows p) (move : Move ε σ) :
    ∃ q, (rendering.step listeners move).Shows q ∧ p.Stirs q := by
  have other : (∀ id, move ≠ .drive id) →
      ∃ q, (rendering.step listeners move).Shows q ∧ p.Stirs q := by
    intro aside
    obtain ⟨q, shown, moved⟩ := step_shows_aside shows aside
    refine ⟨q, shown, ?_⟩
    rcases moved with rfl | advance
    · exact .refl
    · exact .single (.access advance)
  cases move with
  | drive id => exact drive_stirs lenient shows id
  | cancel | close | alter => exact other fun _ => nofun

/-- A play of a render that listeners may cancel is a sequence of stirs. -/
theorem play_stirs {rendering : Rendering ε σ Audience} {p : Progress}
    (lenient : listeners.MayCancel rendering.number) (shows : rendering.Shows p)
    (moves : List (Move ε σ)) :
    ∃ q, (rendering.play listeners moves).Shows q ∧ p.Stirs q := by
  induction moves generalizing rendering p with
  | nil => exact ⟨p, shows, .refl⟩
  | cons move rest ih =>
      obtain ⟨middle, shown, stirs⟩ := step_stirs lenient shows move
      rw [← number_step listeners rendering move] at lenient
      obtain ⟨last, reached, further⟩ := ih lenient shown
      exact ⟨last, reached, stirs.trans further⟩

/-- A render that listeners may cancel is at every moment some stirs from its start. -/
theorem run_stirs {farm : Farm ε σ Audience} (lenient : listeners.MayCancel farm.cursors.size)
    (size : Dimensions) (moves : List (Move ε σ)) :
    ∃ p, ((start listeners farm size).play listeners moves).Shows p ∧
      (Progress.start size (start listeners farm size).drivers.length).Stirs p := by
  obtain ⟨first, begun, opening⟩ := start_stirs lenient size
  obtain ⟨p, shows, stirs⟩ := play_stirs lenient begun moves
  exact ⟨p, shows, opening.trans stirs⟩

/-- A render whose listeners may cancel it is sound at every moment. -/
theorem play_sound {farm : Farm ε σ Audience} (lenient : listeners.MayCancel farm.cursors.size)
    (size : Dimensions) (moves : List (Move ε σ)) :
    ∃ p, ((start listeners farm size).play listeners moves).Shows p ∧ p.Sound size := by
  obtain ⟨p, shows, stirs⟩ := run_stirs lenient size moves
  exact ⟨p, shows, (Progress.Sound.start size _).stirs stirs⟩

/-- A step of a driver leaves cancels, the report and the other drivers alone. -/
theorem drive_others (listeners : Listeners ε σ Audience) (rendering : Rendering ε σ Audience)
    (id : Nat) :
    (rendering.drive listeners id).cancelling = rendering.cancelling ∧
      (rendering.drive listeners id).closing = rendering.closing ∧
      ∀ other, other ≠ id →
        (rendering.drive listeners id).drivers[other]? = rendering.drivers[other]? := by
  unfold drive
  split
  · exact ⟨rfl, rfl, fun _ _ => rfl⟩
  · exact ⟨rfl, rfl, fun other different => List.getElem?_set_ne (Ne.symm different)⟩

/-- Steps of drivers begin neither a cancel nor the report. -/
theorem play_drives (listeners : Listeners ε σ Audience) (rendering : Rendering ε σ Audience)
    (schedule : List Nat) :
    (rendering.play listeners (schedule.map .drive)).cancelling = rendering.cancelling ∧
      (rendering.play listeners (schedule.map .drive)).closing = rendering.closing := by
  induction schedule generalizing rendering with
  | nil => exact ⟨rfl, rfl⟩
  | cons id rest ih =>
      obtain ⟨cancelling, closing, -⟩ := drive_others listeners rendering id
      obtain ⟨later, last⟩ := ih (rendering.drive listeners id)
      exact ⟨later.trans cancelling, last.trans closing⟩

end Rendering

end RenderFarm
