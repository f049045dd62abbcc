/-!
# Signed 64-bit literals

A literal is an optional sign and at least one ASCII digit; it has a value when the number fits a
signed 64-bit word.
-/

namespace RenderFarm.Text

def digitValue? (c : Char) : Option Nat :=
  if '0' ≤ c ∧ c ≤ '9' then some (c.toNat - '0'.toNat) else none

/-- The number that ASCII digits spell; none for no digits at all. -/
def natural? : List Char → Option Nat
  | [] => none
  | digits => digits.foldlM (fun value c => (digitValue? c).map (10 * value + ·)) 0

/-- Whether a number fits a signed 64-bit word. -/
def inInt64 (value : Int) : Bool :=
  -0x8000000000000000 ≤ value && value < 0x8000000000000000

/-- The value of a literal such as `7`, `+7` or `-007`. -/
def int64? (text : List Char) : Option Int :=
  let value : Option Int :=
    match text with
    | '-' :: digits => (natural? digits).map fun n => -(n : Int)
    | '+' :: digits => (natural? digits).map Int.ofNat
    | digits => (natural? digits).map Int.ofNat
  value.filter inInt64

/-- The literal that is written for a value: a minus sign where needed, no leading zeros. -/
def intDigits (value : Int) : List Char :=
  let digits := Nat.toDigits 10 value.natAbs
  if value < 0 then '-' :: digits else digits

end RenderFarm.Text
