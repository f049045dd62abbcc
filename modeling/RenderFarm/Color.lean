/-!
# Colors

A color is three bytes. It travels as one word `0x00RRGGBB` and is written as six hexadecimal
digits behind a hash. Main statements: packing and unpacking are inverse up to the top byte.
-/

namespace RenderFarm

/-- Red, green and blue, from 0 to 255 each. -/
structure Color where
  red : UInt8
  green : UInt8
  blue : UInt8
  deriving DecidableEq, Inhabited, Repr

namespace Color

def black : Color := ⟨0, 0, 0⟩

def white : Color := ⟨255, 255, 255⟩

/-- The color of a word `0x00RRGGBB`. The top byte is ignored. -/
def ofPacked (word : UInt32) : Color :=
  ⟨.ofNat (word.toNat / 65536), .ofNat (word.toNat / 256), .ofNat word.toNat⟩

/-- The word `0x00RRGGBB` of a color. -/
def pack (color : Color) : UInt32 :=
  .ofNat (color.red.toNat * 65536 + color.green.toNat * 256 + color.blue.toNat)

/-! ## Hexadecimal text -/

/-- The value of a hexadecimal digit of either case. -/
def hexValue? (c : Char) : Option Nat :=
  if '0' ≤ c ∧ c ≤ '9' then some (c.toNat - '0'.toNat)
  else if 'a' ≤ c ∧ c ≤ 'f' then some (c.toNat - 'a'.toNat + 10)
  else if 'A' ≤ c ∧ c ≤ 'F' then some (c.toNat - 'A'.toNat + 10)
  else none

/-- The byte that two hexadecimal digits spell. -/
def byte? (high low : Char) : Option UInt8 := do
  let h ← hexValue? high
  let l ← hexValue? low
  return .ofNat (16 * h + l)

/-- Reads six hexadecimal digits. -/
def ofDigits? : List Char → Option Color
  | [r₁, r₂, g₁, g₂, b₁, b₂] => do
    let red ← byte? r₁ r₂
    let green ← byte? g₁ g₂
    let blue ← byte? b₁ b₂
    return ⟨red, green, blue⟩
  | _ => none

/-- Reads six hexadecimal digits, with or without one hash in front. -/
def ofHex? (text : List Char) : Option Color :=
  match text with
  | '#' :: digits => ofDigits? digits
  | digits => ofDigits? digits

/-- The lower-case hexadecimal digit of a value below 16. -/
def hexDigit (value : Nat) : Char :=
  if value < 10 then Char.ofNat ('0'.toNat + value) else Char.ofNat ('a'.toNat + value - 10)

def byteDigits (byte : UInt8) : List Char :=
  [hexDigit (byte.toNat / 16), hexDigit (byte.toNat % 16)]

/-- The six digits `rrggbb`. -/
def digits (color : Color) : List Char :=
  byteDigits color.red ++ byteDigits color.green ++ byteDigits color.blue

/-- The text `#rrggbb`. -/
def hex (color : Color) : List Char :=
  '#' :: color.digits

/-! ## Packing laws -/

theorem toNat_pack (color : Color) :
    color.pack.toNat = color.red.toNat * 65536 + color.green.toNat * 256 + color.blue.toNat := by
  have hr := color.red.toNat_lt
  have hg := color.green.toNat_lt
  have hb := color.blue.toNat_lt
  simp only [pack, UInt32.toNat_ofNat']
  omega

@[simp] theorem ofPacked_pack (color : Color) : ofPacked color.pack = color := by
  have hr := color.red.toNat_lt
  have hg := color.green.toNat_lt
  have hb := color.blue.toNat_lt
  rcases color with ⟨r, g, b⟩
  simp only [ofPacked, toNat_pack, mk.injEq] at *
  refine ⟨?_, ?_, ?_⟩ <;> apply UInt8.toNat_inj.1 <;> simp only [UInt8.toNat_ofNat'] <;> omega

theorem pack_ofPacked (word : UInt32) : ((ofPacked word).pack).toNat = word.toNat % 0x1000000 := by
  have hw := word.toNat_lt
  simp only [toNat_pack, ofPacked, UInt8.toNat_ofNat']
  omega

end Color

end RenderFarm
