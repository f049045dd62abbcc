import RenderFarm.Color.Blend
import RenderFarm.Scene

/-!
# Pictures

A picture is a size and a pattern. Row 0 is the bottom row. The rows of a gradient and of a flat
color exist for every row number; those of a checkerboard as long as the square numbers of a pixel
add up to less than `2 ^ 32`.
-/

namespace RenderFarm.Language

inductive Pattern where
  /-- White at the bottom, fading to sky blue at the top. -/
  | gradient
  /-- Squares of `cell` pixels whose colors alternate. -/
  | checker (cell : UInt32) (even odd : Color)
  /-- One color everywhere. -/
  | solid (color : Color)
  deriving DecidableEq

structure Picture where
  size : Dimensions
  pattern : Pattern
  deriving DecidableEq

namespace Picture

/-- The color at the top of a gradient. -/
def sky : Color := ⟨128, 178, 255⟩

/-- How far up a row lies, as the quotient of two single-precision numbers; 1 from the top row
on. -/
def heightWeight (height row : UInt32) : Rat :=
  if 1 < height then
    let weight :=
      Binary32.nearest (Binary32.nearest row.toNat / Binary32.nearest (height - 1).toNat)
    if 1 ≤ weight then 1 else weight
  else 0

def gradientColor (height row : UInt32) : Color :=
  Color.white.blend sky (heightWeight height row)

/-- The color of a pixel of a checkerboard. Its square numbers are counted in words of 32 bits, and
so is their sum; there is no color where a square is empty or the sum does not fit. -/
def checkerColor? (cell : UInt32) (even odd : Color) (row column : Nat) : Option Color :=
  if cell = 0 then none
  else
    let squares := column / cell.toNat + row / cell.toNat
    if squares < 0x100000000 then some (if squares % 2 = 0 then even else odd) else none

/-- The packed colors of a row from left to right. -/
def drawRow (picture : Picture) (row : UInt32) : Option (List UInt32) :=
  let width := picture.size.width.toNat
  match picture.pattern with
  | .gradient => some (List.replicate width (gradientColor picture.size.height row).pack)
  | .checker cell even odd =>
    (List.range width).mapM fun column =>
      (checkerColor? cell even odd row.toNat column).map Color.pack
  | .solid color => some (List.replicate width color.pack)

end Picture

end RenderFarm.Language
