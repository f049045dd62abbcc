import Mathlib.Tactic.IntervalCases
import RenderFarm.Color

/-!
# Colors and their spelling

A color is spelt by six hexadecimal digits of either case, two for each channel, with a hash in front
or without one. `ofHex?_eq_some_iff` says that just these texts are read, each as the color that it
spells.
-/

namespace RenderFarm.Color

/-- The digits in lower case, each at the place of its value. -/
def lowerDigits : List Char :=
  "0123456789abcdef".toList

/-- The digits in upper case, each at the place of its value. -/
def upperDigits : List Char :=
  "0123456789ABCDEF".toList

/-- A digit of either case stands for a value. -/
def StandsFor (c : Char) (value : Nat) : Prop :=
  lowerDigits[value]? = some c ∨ upperDigits[value]? = some c

/-- Two digits spell a byte, the higher one first. -/
def SpellsByte (high low : Char) (byte : UInt8) : Prop :=
  ∃ h l, StandsFor high h ∧ StandsFor low l ∧ byte.toNat = 16 * h + l

/-- Six digits spell a color: red, green and blue. -/
inductive SpeltBy : List Char → Color → Prop
  | digits {r₁ r₂ g₁ g₂ b₁ b₂ : Char} {color : Color} (red : SpellsByte r₁ r₂ color.red)
    (green : SpellsByte g₁ g₂ color.green) (blue : SpellsByte b₁ b₂ color.blue) :
    SpeltBy [r₁, r₂, g₁, g₂, b₁, b₂] color

/-- Six digits spell a color, and so they do behind a hash. -/
def Spells (text : List Char) (color : Color) : Prop :=
  SpeltBy text color ∨ ∃ digits, text = '#' :: digits ∧ SpeltBy digits color

/-! ## Digits -/

theorem StandsFor.lt {c : Char} {value : Nat} (stands : StandsFor c value) : value < 16 := by
  rcases stands with lower | upper
  · exact (List.getElem?_eq_some_iff.1 lower).1
  · exact (List.getElem?_eq_some_iff.1 upper).1

instance (c : Char) (value : Nat) : Decidable (StandsFor c value) :=
  inferInstanceAs (Decidable (_ ∨ _))

/-- No character behind `f` is a digit. -/
theorem toNat_le_of_hexValue? {c : Char} {value : Nat} (read : hexValue? c = some value) :
    c.toNat ≤ 'f'.toNat := by
  have most : ∀ {last : Char}, c ≤ last → c.toNat ≤ last.toNat := fun below =>
    UInt32.le_iff_toNat_le.1 (Char.le_def.1 below)
  unfold hexValue? at read
  split at read
  · next decimal => exact Nat.le_trans (most decimal.2) (by decide)
  · split at read
    · next lower => exact most lower.2
    · split at read
      · next upper => exact Nat.le_trans (most upper.2) (by decide)
      · cases read

theorem hexValue?_eq_some_iff {c : Char} {value : Nat} :
    hexValue? c = some value ↔ StandsFor c value := by
  constructor
  · intro read
    have digits : ∀ code < 103, ∀ value ∈ hexValue? (Char.ofNat code),
        StandsFor (Char.ofNat code) value := by decide
    have stands := digits c.toNat (Nat.lt_succ_of_le (toNat_le_of_hexValue? read)) value
    rw [Char.ofNat_toNat] at stands
    exact stands read
  · intro stands
    have bound := stands.lt
    rcases stands with lower | upper
    · interval_cases value <;> cases lower <;> decide
    · interval_cases value <;> cases upper <;> decide

theorem byte?_eq_some_iff {high low : Char} {byte : UInt8} :
    byte? high low = some byte ↔ SpellsByte high low byte := by
  have place : ∀ {h l : Nat}, StandsFor high h → StandsFor low l →
      ((.ofNat (16 * h + l) : UInt8) = byte ↔ byte.toNat = 16 * h + l) := by
    intro h l first second
    have fits : 16 * h + l < 256 := by
      have := first.lt
      have := second.lt
      omega
    rw [← UInt8.toNat_inj, UInt8.toNat_ofNat', Nat.mod_eq_of_lt fits, eq_comm]
  constructor
  · intro read
    obtain ⟨h, first, read⟩ := Option.bind_eq_some_iff.1 read
    obtain ⟨l, second, read⟩ := Option.bind_eq_some_iff.1 read
    have high := hexValue?_eq_some_iff.1 first
    have low := hexValue?_eq_some_iff.1 second
    exact ⟨h, l, high, low, (place high low).1 (Option.some.inj read)⟩
  · rintro ⟨h, l, high, low, value⟩
    refine Option.bind_eq_some_iff.2 ⟨h, hexValue?_eq_some_iff.2 high, ?_⟩
    refine Option.bind_eq_some_iff.2 ⟨l, hexValue?_eq_some_iff.2 low, ?_⟩
    exact congrArg some ((place high low).2 value)

/-! ## Texts -/

theorem ofDigits?_eq_some_iff {digits : List Char} {color : Color} :
    ofDigits? digits = some color ↔ SpeltBy digits color := by
  constructor
  · intro read
    unfold ofDigits? at read
    split at read
    · obtain ⟨red, first, read⟩ := Option.bind_eq_some_iff.1 read
      obtain ⟨green, second, read⟩ := Option.bind_eq_some_iff.1 read
      obtain ⟨blue, third, read⟩ := Option.bind_eq_some_iff.1 read
      cases read
      exact .digits (byte?_eq_some_iff.1 first) (byte?_eq_some_iff.1 second)
        (byte?_eq_some_iff.1 third)
    · cases read
  · rintro ⟨red, green, blue⟩
    simp only [ofDigits?, byte?_eq_some_iff.2 red, byte?_eq_some_iff.2 green,
      byte?_eq_some_iff.2 blue]
    rfl

/-- A hash is no digit. -/
theorem not_speltBy_hash (rest : List Char) (color : Color) : ¬SpeltBy ('#' :: rest) color := by
  rintro (⟨red, -, -⟩)
  obtain ⟨h, -, stands, -⟩ := red
  have value := hexValue?_eq_some_iff.2 stands
  cases value

/-- A text is read as a color just when it spells the color. -/
theorem ofHex?_eq_some_iff {text : List Char} {color : Color} :
    ofHex? text = some color ↔ Spells text color := by
  unfold ofHex? Spells
  split
  · next digits =>
    rw [ofDigits?_eq_some_iff]
    constructor
    · exact fun spelt => .inr ⟨digits, rfl, spelt⟩
    · rintro (spelt | ⟨_, ⟨⟩, spelt⟩)
      · exact absurd spelt (not_speltBy_hash digits color)
      · exact spelt
  · next unmarked =>
    rw [ofDigits?_eq_some_iff]
    constructor
    · exact .inl
    · rintro (spelt | ⟨digits, rfl, -⟩)
      · exact spelt
      · exact absurd rfl (unmarked digits)

end RenderFarm.Color
