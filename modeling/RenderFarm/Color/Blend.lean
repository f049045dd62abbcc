import RenderFarm.Binary32
import RenderFarm.Color

/-!
# Blending two colors

Each channel moves from one byte to the other by a weight in the unit interval. The mixed value is
rounded twice: once to single precision, as one fused multiply and add, and then to a byte, a half
going up.
-/

namespace RenderFarm.Color

/-- The channel value at `weight` of the way. -/
def mix (source target : UInt8) (weight : Rat) : UInt8 :=
  let exact := ((target.toNat : Rat) - source.toNat) * weight + source.toNat
  .ofNat (Binary32.roundHalfUp (Binary32.nearest exact)).toNat

/-- The color at `weight` of the way, a weight between 0 and 1. -/
def blend (source target : Color) (weight : Rat) : Color :=
  ⟨mix source.red target.red weight, mix source.green target.green weight,
    mix source.blue target.blue weight⟩

/-- Blending by any single-precision number: weights outside the unit interval are moved to its
ends, and a non-number gives black. -/
def blendBits (source target : Color) (weight : UInt32) : Color :=
  match (Binary32.ofBits weight).clampUnit with
  | some value => source.blend target value
  | none => black

end RenderFarm.Color
