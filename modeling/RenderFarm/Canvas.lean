import Std.Data.ExtTreeMap
import RenderFarm.Color
import RenderFarm.Event
import RenderFarm.Failure

/-!
# The canvas

A canvas is a picture under construction, fed by render events. It takes its size from a started
render, paints every row that belongs to a scene of that size, and stops when the render ends. Row
0 is the bottom of the scene, so it lies on the last line of the picture.

A paint covers the pixels it has colors for and leaves the others as they were, so each pixel shows
the latest paint that reached it, and black where none did. Only what was painted is kept, so a
canvas is as large as the paint on it, whatever its size. Main statement: a paint of a row is all
that changes what lies on the picture (`covered_paint`).
-/

namespace RenderFarm

structure Canvas where
  size : Dimensions
  /-- The painted rows of the scene, each with the colors that lie on its first pixels. -/
  painted : Std.ExtTreeMap UInt32 (List Color)
  rendering : Bool
  /-- The duration that the last finished render gave. -/
  elapsed : Option Nat

namespace Canvas

/-- A black picture of the given size, for a render in progress. -/
def reset (size : Dimensions) : Canvas :=
  ⟨size, ∅, true, none⟩

def empty : Canvas :=
  { reset ⟨0, 0⟩ with rendering := false }

/-! ## Painting -/

/-- Lays packed colors over the first of those that are there. -/
def overlay (words : List UInt32) (under : List Color) : List Color :=
  words.map .ofPacked ++ under.drop words.length

/-- The colors that lie on the first pixels of a row of the scene. -/
def covered (canvas : Canvas) (row : UInt32) : List Color :=
  canvas.painted.getD row []

/-- Paints a row of the scene; a row outside the picture changes nothing, and colors beyond the
last pixel are dropped. -/
def paint (canvas : Canvas) (row : UInt32) (words : List UInt32) : Canvas :=
  if row < canvas.size.height then
    let colors := overlay (words.take canvas.size.width.toNat) (canvas.covered row)
    { canvas with painted := canvas.painted.insert row colors }
  else canvas

/-- What an event does to the picture. A row of a scene of another size is dropped. -/
def apply (canvas : Canvas) : Event → Canvas
  | .sceneLoaded size => reset size
  | .lineComputed row size words => if size = canvas.size then canvas.paint row words else canvas
  | .sceneRendered elapsed => { canvas with rendering := false, elapsed := some elapsed }
  | .evalError _ | .stdoutWritten _ => canvas

/-- The number of distinct rows painted since the last reset. -/
def paintedCount (canvas : Canvas) : Nat :=
  canvas.painted.size

/-- Whether every row was painted, told at the lowest row that was not. -/
def allPainted (canvas : Canvas) : Bool :=
  canvas.size.height.toNat.all fun row _ => canvas.painted.contains (.ofNat row)

/-! ## Looking -/

/-- The row of the scene that lies on line `y`, counted from the top, of the picture. -/
def rowOf (canvas : Canvas) (y : UInt32) : UInt32 :=
  canvas.size.height - 1 - y

/-- The color in column `x` of line `y`, counted from the top left. -/
def pixel? (canvas : Canvas) (x y : UInt32) : Option Color :=
  if x < canvas.size.width ∧ y < canvas.size.height then
    some ((canvas.covered (canvas.rowOf y))[x.toNat]?.getD .black)
  else none

/-- The colors of line `y` from left to right. -/
def line (canvas : Canvas) (y : UInt32) : List Color :=
  let colors := canvas.covered (canvas.rowOf y)
  colors ++ List.replicate (canvas.size.width.toNat - colors.length) .black

/-- The colors of the picture, line by line; a picture without columns has no lines to show. -/
def pixels (canvas : Canvas) : List (List Color) :=
  if canvas.size.width = 0 then []
  else (List.range canvas.size.height.toNat).map fun y => canvas.line (.ofNat y)

/-- The picture as it is written to a file. `refusal` is the reason why the file could not be
opened, which comes before any fault of the picture; a picture without pixels has no file form. -/
def save (canvas : Canvas) (refusal : Option String) : Except Failure (List (List Color)) :=
  match refusal with
  | some reason => .error (.picture (.unwritable reason))
  | none =>
    if canvas.size.width = 0 then .error (.picture .zeroWidth)
    else if canvas.size.height = 0 then .error (.picture .zeroHeight)
    else .ok canvas.pixels

/-! ## Small laws -/

@[simp] theorem size_paint (canvas : Canvas) (row : UInt32) (words : List UInt32) :
    (canvas.paint row words).size = canvas.size := by
  unfold paint
  split <;> rfl

@[simp] theorem covered_reset (size : Dimensions) (row : UInt32) :
    (reset size).covered row = [] := by
  simp [covered, reset]

theorem covered_paint (canvas : Canvas) (row other : UInt32) (words : List UInt32) :
    (canvas.paint row words).covered other =
      if row < canvas.size.height ∧ row = other then
        overlay (words.take canvas.size.width.toNat) (canvas.covered row)
      else canvas.covered other := by
  unfold paint
  split
  · by_cases same : row = other <;> simp_all [covered, Std.ExtTreeMap.getD_insert]
  · rw [if_neg fun inside => absurd inside.1 ‹_›]

/-- A pixel shows the last color laid over it. -/
theorem getElem?_overlay (words : List UInt32) (under : List Color) (x : Nat) :
    (overlay words under)[x]? = if x < words.length then words[x]?.map .ofPacked else under[x]? := by
  unfold overlay
  split
  · rw [List.getElem?_append_left (by simpa using ‹_›), List.getElem?_map]
  · rw [List.getElem?_append_right (by simpa using Nat.not_lt.1 ‹_›), List.getElem?_drop,
      List.length_map]
    congr 1
    omega

end Canvas

end RenderFarm
