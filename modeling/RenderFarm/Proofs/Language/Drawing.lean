import Mathlib.Algebra.GroupWithZero.Nat
import RenderFarm.Proofs.Language.Reading
import RenderFarm.Proofs.Traversal
import RenderFarm.Worker

/-!
# Which rows can be drawn

The numbers of a scene statement are positive words (`Picture.Proper`), so no picture is empty and no
square of a board is. What a row still can fail by is the sum of two square numbers, and
`row_drawn_unless_far` says when that happens: on boards of single pixels only, in the rows that lie
too far up for their last pixel.
-/

namespace RenderFarm.Language

/-! ## Pictures that texts describe -/

/-- A picture that is not empty, of squares that are not empty. -/
structure Picture.Proper (picture : Picture) : Prop where
  width : 0 < picture.size.width
  height : 0 < picture.size.height
  cell : ∀ cell even odd, picture.pattern = .checker cell even odd → 0 < cell

variable {bindings : Bindings}

theorem positive_pos {quantity : Quantity} {token : Option (List Char)} {count : UInt32}
    (read : positive bindings quantity token = .ok count) : 0 < count := by
  cases token with
  | none => cases read
  | some token =>
      obtain ⟨value, -, read⟩ := bind_eq_ok.1 read
      cases value with
      | text inner => cases read
      | int n =>
          dsimp only at read
          split at read
          · next above =>
            split at read
            · next below =>
              cases read
              rw [UInt32.lt_iff_toNat_lt, UInt32.toNat_ofNat', Nat.mod_eq_of_lt (by omega)]
              exact (Int.lt_toNat).2 above
            · cases read
          · cases read

/-- The squares of a board that is read are not empty. -/
theorem cell_pos {words rest : List (List Char)} {cell : UInt32} {even odd : Color}
    (read : pattern bindings words = .ok (.checker cell even odd, rest)) : 0 < cell := by
  cases words with
  | nil => cases read
  | cons name words =>
      simp only [pattern] at read
      split at read
      · cases read
      · split at read
        · obtain ⟨found, size, read⟩ := bind_eq_ok.1 read
          obtain ⟨first, -, read⟩ := bind_eq_ok.1 read
          obtain ⟨second, -, read⟩ := bind_eq_ok.1 read
          cases read
          exact positive_pos size
        · split at read
          · obtain ⟨flat, -, read⟩ := bind_eq_ok.1 read
            cases read
          · cases read

theorem picture_proper {words : List (List Char)} {built : Picture}
    (read : picture bindings words = .ok built) : built.Proper := by
  obtain ⟨width, wide, read⟩ := bind_eq_ok.1 read
  obtain ⟨height, high, read⟩ := bind_eq_ok.1 read
  obtain ⟨⟨found, extra⟩, squares, read⟩ := bind_eq_ok.1 read
  cases extra with
  | cons token others => cases read
  | nil =>
      cases read
      refine ⟨positive_pos wide, positive_pos high, ?_⟩
      rintro cell even odd rfl
      exact cell_pos squares

/-- What a text describes is not empty. -/
theorem proper_of_evaluate {source : String} {next : Bindings} {text : String} {picture : Picture}
    (made : (evaluate bindings source).verdict = .success next text (some picture)) :
    picture.Proper := by
  have kept : ∀ {before after : Progress} {statement : Statement},
      before.Performs statement after → (∀ picture ∈ before.scene, picture.Proper) →
        ∀ picture ∈ after.scene, picture.Proper := by
    intro before after statement performs proper
    cases performs with
    | print rest => exact proper
    | scene read =>
        rintro picture ⟨⟩
        exact picture_proper read
    | assign named read => exact proper
    | echo named read => exact proper
  have proper : ∀ picture ∈ (run bindings source).1.scene, picture.Proper :=
    run_induction kept (fun _ none => by cases none) source
  rcases ran : run bindings source with ⟨progress, - | fault⟩
  · rw [evaluate_of_run ran] at made
    obtain ⟨-, -, scene⟩ := Verdict.success.inj made
    rw [ran] at proper
    exact proper picture scene
  · rw [evaluate_of_stopped ran] at made
    cases made

/-! ## Rows -/

/-- Two square numbers add up to too much only where the squares are single pixels. -/
theorem far_iff {cell column row : Nat} (filled : 0 < cell) (narrow : column < 2 ^ 32)
    (low : row < 2 ^ 32) :
    2 ^ 32 ≤ column / cell + row / cell ↔ cell = 1 ∧ 2 ^ 32 ≤ column + row := by
  rcases Nat.lt_or_ge 1 cell with large | single
  · have columns : column / cell ≤ column / 2 := Nat.div_le_div_left large (by decide)
    have rows : row / cell ≤ row / 2 := Nat.div_le_div_left large (by decide)
    omega
  · obtain rfl : cell = 1 := by omega
    simp only [Nat.div_one, true_and]

namespace Picture

theorem checkerColor?_eq_none_iff {cell : UInt32} (filled : 0 < cell) (even odd : Color)
    {row column : Nat} (narrow : column < 2 ^ 32) (low : row < 2 ^ 32) :
    checkerColor? cell even odd row column = none ↔ cell = 1 ∧ 2 ^ 32 ≤ column + row := by
  have whole : 0 < cell.toNat := UInt32.lt_iff_toNat_lt.1 filled
  have single : cell = 1 ↔ cell.toNat = 1 := UInt32.toNat_inj.symm
  have nonzero : cell ≠ 0 := by
    rintro rfl
    cases whole
  rw [single, ← far_iff whole narrow low, checkerColor?, if_neg nonzero]
  dsimp only
  split <;> simp <;> omega

/-- The pixel of a row that decides whether it can be drawn is the last one. -/
theorem drawRow_eq_none_iff {picture : Picture} (proper : picture.Proper) (row : UInt32) :
    picture.drawRow row = none ↔ ∃ even odd, picture.pattern = .checker 1 even odd ∧
      2 ^ 32 ≤ picture.size.width.toNat - 1 + row.toNat := by
  have wide : 0 < picture.size.width.toNat := UInt32.lt_iff_toNat_lt.1 proper.width
  have narrow := picture.size.width.toNat_lt
  have low := row.toNat_lt
  unfold drawRow
  cases shape : picture.pattern with
  | gradient => simp
  | solid color => simp
  | checker cell even odd =>
      have filled := proper.cell cell even odd shape
      simp only [mapM_eq_none_iff, List.mem_range, Option.map_eq_none_iff, Pattern.checker.injEq]
      constructor
      · rintro ⟨column, inside, colorless⟩
        obtain ⟨single, far⟩ :=
          (checkerColor?_eq_none_iff filled even odd (by omega) low).1 colorless
        exact ⟨even, odd, ⟨single, rfl, rfl⟩, by omega⟩
      · rintro ⟨_, _, ⟨single, -, -⟩, far⟩
        exact ⟨picture.size.width.toNat - 1, by omega,
          (checkerColor?_eq_none_iff filled even odd (by omega) low).2 ⟨single, far⟩⟩

end Picture

/-- A worker that retains a picture loses its thread over the rows below its height that cannot be
drawn. -/
theorem computed_eq_ended_iff {ε : Type} [Evaluator ε Picture] (engine : ε) (picture : Picture)
    (ticket : Nat) (row : UInt32) :
    Worker.computed engine (some picture) ticket row = .ended ↔
      row < picture.size.height ∧ picture.drawRow row = none := by
  simp only [Worker.computed, Scene.size, Scene.drawRow]
  split
  · next inside =>
    cases drawn : picture.drawRow row <;> simp [inside]
  · next outside => simp [outside]

/-- A picture that a text describes has columns, rows and, on a board, squares of some size. A row of
it can be drawn unless the picture is a board of single pixels and the row so far up that the number
of its last pixel and its own add up to `2 ^ 32` or more, and no other row below the height ends the
thread of a worker that is asked for it. A pixel of a board has no color just when its own two numbers
add up to so much. -/
theorem row_drawn_unless_far (bindings : Bindings) (source : String) {next : Bindings}
    {text : String} {picture : Picture}
    (made : (evaluate bindings source).verdict = .success next text (some picture)) :
    0 < picture.size.width ∧ 0 < picture.size.height ∧
      (∀ cell even odd, picture.pattern = .checker cell even odd → 0 < cell) ∧
      ∀ row,
        (picture.drawRow row = none ↔ ∃ even odd, picture.pattern = .checker 1 even odd ∧
          2 ^ 32 ≤ picture.size.width.toNat - 1 + row.toNat) ∧
        (∀ ticket, Worker.computed next (some picture) ticket row = .ended ↔
          row < picture.size.height ∧ ∃ even odd, picture.pattern = .checker 1 even odd ∧
            2 ^ 32 ≤ picture.size.width.toNat - 1 + row.toNat) ∧
        ∀ cell even odd, picture.pattern = .checker cell even odd →
          ∀ column < picture.size.width.toNat,
            Picture.checkerColor? cell even odd row.toNat column = none ↔
              cell = 1 ∧ 2 ^ 32 ≤ column + row.toNat := by
  have proper := proper_of_evaluate made
  refine ⟨proper.width, proper.height, proper.cell, fun row => ⟨?_, fun ticket => ?_, ?_⟩⟩
  · exact Picture.drawRow_eq_none_iff proper row
  · rw [computed_eq_ended_iff, Picture.drawRow_eq_none_iff proper]
  · intro cell even odd shape column inside
    exact Picture.checkerColor?_eq_none_iff (proper.cell cell even odd shape) even odd
      (Nat.lt_trans inside picture.size.width.toNat_lt) row.toNat_lt

/-- A narrow board of single pixels, as high as can be. -/
def tower : String :=
  "scene 3 4294967295 checker 1 #000000 #ffffff"

def towerPicture : Picture :=
  ⟨⟨3, 4294967295⟩, .checker 1 .black .white⟩

theorem run_tower : run .empty tower =
    (⟨.empty, "<scene 3x4294967295>", some towerPicture, []⟩, none) := by
  decide +kernel

theorem evaluate_tower : (evaluate .empty tower).verdict =
    .success .empty "<scene 3x4294967295>" (some towerPicture) := by
  simp only [evaluate, run_tower]

/-- The row below the top of the tower can still be drawn. -/
theorem tower_drawn_below_top :
    (evaluate .empty tower).verdict = .success .empty "<scene 3x4294967295>" (some towerPicture) ∧
      (towerPicture.drawRow 4294967293).isSome := by
  refine ⟨evaluate_tower, Option.isSome_iff_ne_none.2 fun undrawn => ?_⟩
  obtain ⟨-, -, -, rows⟩ := row_drawn_unless_far .empty tower evaluate_tower
  obtain ⟨_, _, -, far⟩ := (rows 4294967293).1.1 undrawn
  exact absurd far (by decide)

/-- The top row of the tower cannot, and a worker that is asked for it is lost. -/
theorem tower_undrawn_at_top :
    (evaluate .empty tower).verdict = .success .empty "<scene 3x4294967295>" (some towerPicture) ∧
      4294967294 < towerPicture.size.height ∧ towerPicture.drawRow 4294967294 = none ∧
      Worker.computed Bindings.empty (some towerPicture) 0 4294967294 = .ended := by
  have undrawn : towerPicture.drawRow 4294967294 = none := by decide +kernel
  have inside : 4294967294 < towerPicture.size.height := by decide
  exact ⟨evaluate_tower, inside, undrawn, (computed_eq_ended_iff ..).2 ⟨inside, undrawn⟩⟩

end RenderFarm.Language
