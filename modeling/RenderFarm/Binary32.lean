/-!
# Binary32 arithmetic on exact fractions

Single-precision numbers are the rationals with 24 significant bits whose last bit weighs at least
`2 ^ -149`. `nearest` rounds an exact rational to them, a tie going to the neighbour with the even
last bit, so an operation on single-precision numbers is `nearest` of the exact result. Only
numbers below `2 ^ 128` are rounded here, where nothing overflows.
-/

namespace RenderFarm.Binary32

/-- The number of significant bits. -/
def precision : Nat := 24

/-- The exponent of the least positive number. -/
def leastExponent : Int := -149

/-- The nearest integer, of two equally near ones the even one. -/
def roundEven (x : Rat) : Int :=
  let low := x.floor
  let part := x - low
  if part < 1 / 2 then low
  else if 1 / 2 < part then low + 1
  else if low % 2 = 0 then low
  else low + 1

/-- The nearest integer, of two equally near ones the greater one; away from zero where `x` is not
negative. -/
def roundHalfUp (x : Rat) : Int :=
  (x + 1 / 2).floor

/-- The exponent of the last significant bit of a positive rational. The bit lengths of numerator
and denominator determine it up to one, and the comparison decides. -/
def lastExponent (x : Rat) : Int :=
  let guess : Int := (x.num.natAbs.log2 : Int) - x.den.log2 - precision
  max leastExponent (if x < 2 ^ (guess + precision) then guess else guess + 1)

/-- The single-precision number nearest to a rational that is not negative. -/
def nearest (x : Rat) : Rat :=
  if x ≤ 0 then 0
  else
    let unit : Rat := 2 ^ lastExponent x
    roundEven (x / unit) * unit

/-! ## Bit patterns -/

/-- What a pattern of 32 bits stands for. -/
inductive Pattern where
  | finite (value : Rat)
  | infinite (negative : Bool)
  | nan
  deriving DecidableEq

/-- One sign bit, eight exponent bits, 23 fraction bits. An exponent field of zero lacks the
leading bit; a full one is reserved for infinities and non-numbers. -/
def ofBits (bits : UInt32) : Pattern :=
  let negative := 0x80000000 ≤ bits.toNat
  let exponent : Nat := bits.toNat / 0x800000 % 256
  let fraction : Nat := bits.toNat % 0x800000
  let sign : Rat := if negative then -1 else 1
  if exponent = 255 then
    if fraction = 0 then .infinite negative else .nan
  else if exponent = 0 then
    .finite (sign * (fraction : Rat) * 2 ^ leastExponent)
  else
    .finite (sign * ((0x800000 + fraction : Nat) : Rat) * 2 ^ (leastExponent + (exponent : Int) - 1))

/-- The number moved into the interval from 0 to 1; none for a non-number. -/
def Pattern.clampUnit : Pattern → Option Rat
  | .finite value => some (if value ≤ 0 then 0 else if 1 ≤ value then 1 else value)
  | .infinite negative => some (if negative then 0 else 1)
  | .nan => none

end RenderFarm.Binary32
