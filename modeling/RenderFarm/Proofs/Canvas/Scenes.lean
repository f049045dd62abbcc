import Mathlib.Data.List.Nodup
import Mathlib.Data.List.Perm.Subperm
import RenderFarm.Canvas

/-!
# Whole scenes on a canvas

Paints of different rows do not touch each other, so a canvas does not show in which order its rows
were painted (`paintRows_perm`). `ofScene` is the canvas when all rows of a scene have been painted:
it is complete, and its lines are the rows of the scene with the highest row on the first line.
-/

namespace RenderFarm.Canvas

variable (colors : UInt32 → List UInt32)

/-- Paints several rows of a scene, one after the other. -/
def paintRows (canvas : Canvas) (rows : List UInt32) : Canvas :=
  rows.foldl (fun canvas row => canvas.paint row (colors row)) canvas

theorem painted_paint (canvas : Canvas) (row other : UInt32) (words : List UInt32) :
    (canvas.paint row words).painted[other]? =
      if row < canvas.size.height ∧ row = other then
        some (overlay (words.take canvas.size.width.toNat) (canvas.covered row))
      else canvas.painted[other]? := by
  unfold paint
  split
  · by_cases same : row = other <;> simp_all [Std.ExtTreeMap.getElem?_insert]
  · rw [if_neg fun inside => absurd inside.1 ‹_›]

@[simp] theorem rendering_paint (canvas : Canvas) (row : UInt32) (words : List UInt32) :
    (canvas.paint row words).rendering = canvas.rendering := by
  unfold paint
  split <;> rfl

@[simp] theorem elapsed_paint (canvas : Canvas) (row : UInt32) (words : List UInt32) :
    (canvas.paint row words).elapsed = canvas.elapsed := by
  unfold paint
  split <;> rfl

/-- Canvases are the same if they have the same paint on them. -/
theorem ext_painted {first second : Canvas} (size : first.size = second.size)
    (painted : ∀ row : UInt32, first.painted[row]? = second.painted[row]?)
    (rendering : first.rendering = second.rendering) (elapsed : first.elapsed = second.elapsed) :
    first = second := by
  have paint := Std.ExtTreeMap.ext_getElem? painted
  cases first
  cases second
  simp_all

/-- Paints of rows do not depend on their order. -/
theorem paint_comm (canvas : Canvas) (first second : UInt32) :
    (canvas.paint first (colors first)).paint second (colors second) =
      (canvas.paint second (colors second)).paint first (colors first) := by
  by_cases same : first = second
  · rw [same]
  refine ext_painted (by simp) (fun row => ?_) (by simp) (by simp)
  have other : second ≠ first := fun equal => same equal.symm
  simp only [painted_paint, covered_paint, size_paint, same, other, and_false, if_false]
  by_cases one : first = row
  · subst one
    simp only [other, and_false, if_false]
  · simp only [one, and_false, if_false]

theorem paintRows_perm (canvas : Canvas) {rows others : List UInt32} (perm : rows.Perm others) :
    canvas.paintRows colors rows = canvas.paintRows colors others :=
  perm.foldl_eq' (fun first _ second _ canvas => paint_comm colors canvas first second) canvas

@[simp] theorem size_paintRows (canvas : Canvas) (rows : List UInt32) :
    (canvas.paintRows colors rows).size = canvas.size := by
  induction rows generalizing canvas with
  | nil => rfl
  | cons row rest ih => exact (ih _).trans (size_paint ..)

/-- A row painted once shows its colors over what was there. -/
theorem covered_paintRows (canvas : Canvas) {rows : List UInt32} (once : rows.Nodup)
    (row : UInt32) :
    (canvas.paintRows colors rows).covered row =
      if row < canvas.size.height ∧ row ∈ rows then
        overlay ((colors row).take canvas.size.width.toNat) (canvas.covered row)
      else canvas.covered row := by
  induction rows generalizing canvas with
  | nil => simp [paintRows]
  | cons first rest ih =>
      obtain ⟨fresh, once⟩ := List.nodup_cons.1 once
      have later := ih (canvas.paint first (colors first)) once
      rw [size_paint, covered_paint] at later
      refine later.trans ?_
      by_cases same : first = row
      · subst same
        simp [fresh]
      · have other : row ≠ first := fun equal => same equal.symm
        simp [same, other]

/-! ## Every row -/

/-- The rows of a scene, from the bottom up. -/
def rowsBelow (height : UInt32) : List UInt32 :=
  (List.range height.toNat).map .ofNat

theorem toNat_ofNat_of_lt {height : UInt32} {row : Nat} (inside : row < height.toNat) :
    (UInt32.ofNat row).toNat = row := by
  have bound := height.toNat_lt
  rw [UInt32.toNat_ofNat', Nat.mod_eq_of_lt (by omega)]

theorem mem_rowsBelow {height row : UInt32} : row ∈ rowsBelow height ↔ row < height := by
  simp only [rowsBelow, List.mem_map, List.mem_range, UInt32.lt_iff_toNat_lt]
  constructor
  · rintro ⟨number, inside, rfl⟩
    rwa [toNat_ofNat_of_lt inside]
  · exact fun inside => ⟨row.toNat, inside, UInt32.ofNat_toNat⟩

theorem nodup_rowsBelow (height : UInt32) : (rowsBelow height).Nodup := by
  refine (List.nodup_range).map_on ?_
  intro first inFirst second inSecond same
  have numbers := congrArg UInt32.toNat same
  rwa [toNat_ofNat_of_lt (List.mem_range.1 inFirst), toNat_ofNat_of_lt (List.mem_range.1 inSecond)]
    at numbers

/-- The canvas that shows a whole scene. -/
def ofScene (size : Dimensions) (elapsed : Nat) : Canvas :=
  { (reset size).paintRows colors (rowsBelow size.height) with
    rendering := false
    elapsed := some elapsed }

theorem contains_paint (canvas : Canvas) (row other : UInt32) (words : List UInt32) :
    (canvas.paint row words).painted.contains other =
      (canvas.painted.contains other || (row < canvas.size.height && row = other)) := by
  unfold paint
  split
  · by_cases same : row = other <;> simp_all [Std.ExtTreeMap.contains_insert]
  · next outside => simp [outside]

theorem contains_paintRows (canvas : Canvas) (rows : List UInt32) (row : UInt32) :
    (canvas.paintRows colors rows).painted.contains row =
      (canvas.painted.contains row || (row < canvas.size.height && row ∈ rows)) := by
  induction rows generalizing canvas with
  | nil => simp [paintRows]
  | cons first rest ih =>
      have later := ih (canvas.paint first (colors first))
      rw [size_paint] at later
      refine later.trans ?_
      rw [contains_paint]
      by_cases same : first = row
      · subst same
        by_cases inside : first < canvas.size.height <;> simp [inside]
      · have other : row ≠ first := fun equal => same equal.symm
        simp [same, other]

/-! ## Counting rows -/

theorem paintedCount_paint {canvas : Canvas} {row : UInt32} (inside : row < canvas.size.height)
    (fresh : canvas.painted.contains row = false) (words : List UInt32) :
    (canvas.paint row words).paintedCount = canvas.paintedCount + 1 := by
  simp only [paint, inside, if_true, paintedCount, Std.ExtTreeMap.size_insert, fresh,
    Bool.false_eq_true, if_false]

/-- Rows that were not painted yet count one each. -/
theorem paintedCount_paintRows (canvas : Canvas) {rows : List UInt32} (once : rows.Nodup)
    (inside : ∀ row ∈ rows, row < canvas.size.height)
    (fresh : ∀ row ∈ rows, canvas.painted.contains row = false) :
    (canvas.paintRows colors rows).paintedCount = canvas.paintedCount + rows.length := by
  induction rows generalizing canvas with
  | nil => rfl
  | cons row rest ih =>
      obtain ⟨other, once⟩ := List.nodup_cons.1 once
      have first : (canvas.paint row (colors row)).paintedCount = canvas.paintedCount + 1 :=
        paintedCount_paint (inside row (.head _)) (fresh row (.head _)) _
      have still : ∀ later ∈ rest,
          (canvas.paint row (colors row)).painted.contains later = false := by
        intro later member
        have different : row ≠ later := fun same => other (same ▸ member)
        rw [contains_paint, fresh later (.tail _ member)]
        simp [different]
      have last := ih (canvas.paint row (colors row)) once
        (fun later member => (size_paint ..).symm ▸ inside later (.tail _ member)) still
      exact last.trans (by rw [first, List.length_cons]; omega)

theorem allPainted_iff {canvas : Canvas} :
    canvas.allPainted = true ↔
      ∀ row, row < canvas.size.height → canvas.painted.contains row = true := by
  rw [allPainted, Nat.all_eq_finRange_all, List.all_eq_true]
  constructor
  · intro all row inside
    have bound : row.toNat < canvas.size.height.toNat := UInt32.lt_iff_toNat_lt.1 inside
    have there : canvas.painted.contains (.ofNat row.toNat) = true :=
      all ⟨row.toNat, bound⟩ (List.mem_finRange _)
    rwa [UInt32.ofNat_toNat] at there
  · rintro all ⟨row, bound⟩ -
    exact all _ (by rwa [UInt32.lt_iff_toNat_lt, toNat_ofNat_of_lt bound])

/-- A canvas with nothing but these rows on it is complete when they are as many as it is high. -/
theorem allPainted_paintRows {size : Dimensions} {rows : List UInt32} (once : rows.Nodup)
    (inside : ∀ row ∈ rows, row < size.height) :
    ((reset size).paintRows colors rows).allPainted = true ↔ rows.length = size.height.toNat := by
  have among : rows.Subperm (rowsBelow size.height) :=
    List.subperm_of_subset once fun row member => mem_rowsBelow.2 (inside row member)
  have height : (rowsBelow size.height).length = size.height.toNat := by simp [rowsBelow]
  have painted : ∀ row, row < size.height →
      (((reset size).paintRows colors rows).painted.contains row = true ↔ row ∈ rows) := by
    intro row below
    rw [contains_paintRows]
    simp [reset, below]
  rw [allPainted_iff, size_paintRows]
  constructor
  · intro all
    have covers : (rowsBelow size.height).Subperm rows :=
      List.subperm_of_subset (nodup_rowsBelow _) fun row member =>
        (painted row (mem_rowsBelow.1 member)).1 (all row (mem_rowsBelow.1 member))
    exact (among.antisymm covers).length_eq.trans height
  · intro whole row below
    have perm := among.perm_of_length_le (Nat.le_of_eq (height.trans whole.symm))
    exact (painted row below).2 (perm.mem_iff.2 (mem_rowsBelow.2 below))

section OfScene

variable {size : Dimensions} {elapsed : Nat}

@[simp] theorem size_ofScene : (ofScene colors size elapsed).size = size :=
  size_paintRows colors (reset size) _

theorem covered_ofScene {row : UInt32} (inside : row < size.height) :
    (ofScene colors size elapsed).covered row =
      ((colors row).take size.width.toNat).map .ofPacked := by
  have shown := covered_paintRows colors (reset size) (nodup_rowsBelow size.height) row
  rw [if_pos ⟨inside, mem_rowsBelow.2 inside⟩, covered_reset] at shown
  exact shown.trans (by simp [overlay, reset])

/-- A whole scene is complete. -/
theorem allPainted_ofScene : (ofScene colors size elapsed).allPainted = true := by
  have whole : ((reset size).paintRows colors (rowsBelow size.height)).allPainted = true :=
    (allPainted_paintRows colors (nodup_rowsBelow _) fun _ member => mem_rowsBelow.1 member).2
      (by simp [rowsBelow])
  exact whole

/-- A picture turned upside down has the same lines. -/
theorem flipped_lt {height y : UInt32} (inside : y < height) : height - 1 - y < height := by
  have bound := height.toNat_lt
  rw [UInt32.lt_iff_toNat_lt] at inside ⊢
  rw [UInt32.toNat_sub, UInt32.toNat_sub, UInt32.toNat_one]
  omega

/-- Line `y` of the picture is the row of the scene that lies as far below the top. -/
theorem line_ofScene {y : UInt32} (inside : y < size.height)
    (whole : (colors (size.height - 1 - y)).length = size.width.toNat) :
    (ofScene colors size elapsed).line y = (colors (size.height - 1 - y)).map .ofPacked := by
  simp only [line, rowOf, size_ofScene]
  rw [covered_ofScene colors (flipped_lt inside), ← whole, List.take_length]
  simp

end OfScene

end RenderFarm.Canvas
