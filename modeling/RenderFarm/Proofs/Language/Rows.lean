import RenderFarm.Proofs.Color.Reading
import RenderFarm.Proofs.Language.Drawing

/-!
# The rows of pictures

What evaluations return one after the other is never empty (`proper_of_mem_returned`), for the counts
of a scene statement are positive, be they written out or bound to names before. Rows of such pictures
are read off their patterns: one color throughout, or the two colors of a board by the parity of the
square numbers (`drawRow_checker`), and every pixel is a packed color. Main statement:
`returned_pictures_keep_promises`.
-/

namespace RenderFarm.Language

/-- The pictures that the evaluations of some texts return, one text after the other. -/
def returned (bindings : Bindings) : List String → List Picture
  | [] => []
  | source :: rest =>
    match (evaluate bindings source).verdict with
    | .success next _ scene => scene.toList ++ returned next rest
    | .failure next _ => returned next rest
    | .panic => []

theorem proper_of_mem_returned {bindings : Bindings} {sources : List String} {picture : Picture}
    (member : picture ∈ returned bindings sources) : picture.Proper := by
  induction sources generalizing bindings with
  | nil => cases member
  | cons source rest ih =>
    rw [returned] at member
    split at member
    · next next text scene made =>
      rcases List.mem_append.1 member with first | later
      · rw [Option.mem_toList] at first
        cases first
        exact proper_of_evaluate made
      · exact ih later
    · exact ih member
    · cases member

namespace Picture

/-- A picture of one color has it at every place of a row. -/
theorem drawRow_solid {picture : Picture} {color : Color} (flat : picture.pattern = .solid color)
    (row : UInt32) :
    picture.drawRow row = some (List.replicate picture.size.width.toNat color.pack) := by
  simp only [drawRow, flat]

/-- So has a gradient, which has a color for each row. -/
theorem drawRow_gradient {picture : Picture} (fading : picture.pattern = .gradient) (row : UInt32) :
    picture.drawRow row = some (List.replicate picture.size.width.toNat
      (gradientColor picture.size.height row).pack) := by
  simp only [drawRow, fading]

/-- A pixel of a board has the color that the parity of its square numbers says. -/
theorem checkerColor?_eq_some {cell : UInt32} (filled : 0 < cell) (even odd : Color)
    {row column : Nat} (fits : column / cell.toNat + row / cell.toNat < 2 ^ 32) :
    checkerColor? cell even odd row column =
      some (if (column / cell.toNat + row / cell.toNat) % 2 = 0 then even else odd) := by
  have nonzero : cell ≠ 0 := by
    rintro rfl
    cases filled
  rw [checkerColor?, if_neg nonzero]
  exact if_pos fits

/-- A row of a board whose square numbers fit is all there, color by color. -/
theorem drawRow_checker {picture : Picture} (proper : picture.Proper) {cell : UInt32}
    {even odd : Color} (board : picture.pattern = .checker cell even odd) {row : UInt32}
    (fits : ∀ column < picture.size.width.toNat,
      column / cell.toNat + row.toNat / cell.toNat < 2 ^ 32) :
    picture.drawRow row = some ((List.range picture.size.width.toNat).map fun column =>
      (if (column / cell.toNat + row.toNat / cell.toNat) % 2 = 0 then even else odd).pack) := by
  simp only [drawRow, board]
  rw [mapM_eq_some_iff, List.map_map]
  refine List.map_congr_left fun column inside => ?_
  rw [checkerColor?_eq_some (proper.cell cell even odd board) even odd
    (fits column (List.mem_range.1 inside))]
  rfl

/-- Every pixel that is drawn is a packed color. -/
theorem exists_pack_of_mem_drawRow {picture : Picture} {row : UInt32} {colors : List UInt32}
    (drawn : picture.drawRow row = some colors) {word : UInt32} (member : word ∈ colors) :
    ∃ color : Color, word = color.pack := by
  unfold drawRow at drawn
  split at drawn
  · cases drawn
    exact ⟨_, List.eq_of_mem_replicate member⟩
  · have pixel := mapM_eq_some_iff.1 drawn ▸ List.mem_map_of_mem (f := some) member
    obtain ⟨column, -, made⟩ := List.mem_map.1 pixel
    obtain ⟨color, -, packed⟩ := Option.map_eq_some_iff.1 made
    exact ⟨color, packed.symm⟩
  · cases drawn
    exact ⟨_, List.eq_of_mem_replicate member⟩

end Picture

/-- The pictures that evaluations return have columns, rows and, on a board, squares of some size. A
row of a flat picture is its color, packed, in every column. A row of a board whose square numbers
add up to a word has one entry for each column, by the parity of their sum. A row of any picture that
is drawn leaves the picture as it is and holds no word with a bit in its top byte. -/
theorem returned_pictures_keep_promises (bindings : Bindings) (sources : List String)
    {picture : Picture} (member : picture ∈ returned bindings sources) :
    1 ≤ (Scene.size picture).width ∧ 1 ≤ (Scene.size picture).height ∧
      (∀ cell even odd, picture.pattern = .checker cell even odd → 1 ≤ cell) ∧
      ∀ row : UInt32,
        (∀ color, picture.pattern = .solid color →
          Scene.drawRow picture row =
            some (List.replicate picture.size.width.toNat color.pack, picture)) ∧
        (∀ cell even odd, picture.pattern = .checker cell even odd →
          (∀ column < picture.size.width.toNat,
            column / cell.toNat + row.toNat / cell.toNat < 2 ^ 32) →
          ∃ colors, Scene.drawRow picture row = some (colors, picture) ∧
            colors.length = picture.size.width.toNat ∧
            ∀ column < picture.size.width.toNat, colors[column]? =
              some (if (column / cell.toNat + row.toNat / cell.toNat) % 2 = 0 then even.pack
                else odd.pack)) ∧
        (picture.pattern = .gradient → ∃ color : Color,
          Scene.drawRow picture row =
            some (List.replicate picture.size.width.toNat color.pack, picture)) ∧
        ∀ colors after, Scene.drawRow picture row = some (colors, after) →
          after = picture ∧ ∀ color ∈ colors, color >>> 24 = 0 := by
  have proper := proper_of_mem_returned member
  have whole : ∀ {row colors}, picture.drawRow row = some colors →
      Scene.drawRow picture row = some (colors, picture) := fun drawn =>
    congrArg (Option.map fun colors => (colors, picture)) drawn
  refine ⟨proper.width, proper.height, proper.cell, fun row => ⟨?_, ?_, ?_, ?_⟩⟩
  · exact fun color flat => whole (Picture.drawRow_solid flat row)
  · intro cell even odd board fits
    refine ⟨_, whole (Picture.drawRow_checker proper board fits), ?_, fun column inside => ?_⟩
    · rw [List.length_map, List.length_range]
    · rw [List.getElem?_map, List.getElem?_range inside, Option.map_some, apply_ite Color.pack]
  · exact fun fading => ⟨_, whole (Picture.drawRow_gradient fading row)⟩
  · intro colors after shown
    obtain ⟨_, drawn, same⟩ := Option.map_eq_some_iff.1 shown
    cases same
    refine ⟨rfl, fun word inside => ?_⟩
    obtain ⟨color, rfl⟩ := Picture.exists_pack_of_mem_drawRow drawn inside
    exact color.pack_shiftRight

/-- A board whose width and whose squares are bound by a text before. -/
def boundBoard : List String :=
  ["w = 4\nc = 2", "scene w 3 checker c #ff0000 #0000FF"]

def boundBoardPicture : Picture :=
  ⟨⟨4, 3⟩, .checker 2 ⟨255, 0, 0⟩ ⟨0, 0, 255⟩⟩

theorem bound_board_drawn :
    boundBoardPicture ∈ returned .empty boundBoard ∧
      (∀ column < 4, column / 2 + 2 / 2 < 2 ^ 32) ∧
      1 ≤ boundBoardPicture.size.width ∧
      ∃ colors, Scene.drawRow boundBoardPicture 2 = some (colors, boundBoardPicture) ∧
        colors.length = 4 ∧ colors[1]? = some 0x000000FF ∧ colors[2]? = some 0x00FF0000 := by
  have member : boundBoardPicture ∈ returned .empty boundBoard := by decide +kernel
  have fits : ∀ column < 4, column / 2 + 2 / 2 < 2 ^ 32 := by omega
  obtain ⟨wide, -, -, rows⟩ := returned_pictures_keep_promises .empty boundBoard member
  obtain ⟨colors, drawn, length, entry⟩ := (rows 2).2.1 2 ⟨255, 0, 0⟩ ⟨0, 0, 255⟩ rfl fits
  exact ⟨member, fits, wide, colors, drawn, length, entry 1 (by decide), entry 2 (by decide)⟩

end RenderFarm.Language
