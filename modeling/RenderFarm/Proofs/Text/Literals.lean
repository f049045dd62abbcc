import RenderFarm.Text.Integer

/-!
# Literals and their numbers

Which texts are literals, and for which number: `Spells` says it by the digits alone. Reading finds
just these numbers, as far as they fit a signed 64-bit word (`int64?_eq_some_iff`), and so it finds the
number for which a literal is written (`int64?_intDigits`).
-/

namespace RenderFarm.Text

/-- Digits, and at least one. -/
def IsDecimal (digits : List Char) : Prop :=
  digits ≠ [] ∧ ∀ c ∈ digits, c.isDigit = true

/-- A sign or none, and digits behind it, spell a number in base ten. -/
inductive Spells : List Char → Int → Prop
  | plain {digits : List Char} (decimal : IsDecimal digits) :
    Spells digits (Nat.ofDigitChars 10 digits 0)
  | plus {digits : List Char} (decimal : IsDecimal digits) :
    Spells ('+' :: digits) (Nat.ofDigitChars 10 digits 0)
  | minus {digits : List Char} (decimal : IsDecimal digits) :
    Spells ('-' :: digits) (-(Nat.ofDigitChars 10 digits 0 : Int))

/-! ## Digits -/

theorem digitValue?_eq (c : Char) :
    digitValue? c = if c.isDigit then some (c.toNat - '0'.toNat) else none := by
  have same : ('0' ≤ c ∧ c ≤ '9') ↔ c.isDigit = true := by
    simp only [Char.isDigit, Bool.and_eq_true, decide_eq_true_eq]
    exact Iff.rfl
  simp only [digitValue?, same]

theorem foldlM_digitValue? (digits : List Char) (above : Nat) :
    digits.foldlM (fun value c => (digitValue? c).map (10 * value + ·)) above =
      if digits.all Char.isDigit then some (Nat.ofDigitChars 10 digits above) else none := by
  induction digits generalizing above with
  | nil => simp [Nat.ofDigitChars]
  | cons c rest ih =>
      rw [List.foldlM_cons, digitValue?_eq]
      by_cases digit : c.isDigit = true
      · rw [if_pos digit, Option.map_some, Option.bind_eq_bind, Option.bind_some, ih,
          Nat.ofDigitChars_cons, List.all_cons, digit, Bool.true_and]
      · rw [if_neg digit, List.all_cons, Bool.eq_false_iff.2 digit]
        rfl

theorem natural?_eq_some_iff {digits : List Char} {value : Nat} :
    natural? digits = some value ↔ IsDecimal digits ∧ Nat.ofDigitChars 10 digits 0 = value := by
  cases digits with
  | nil => simp [natural?, IsDecimal]
  | cons c rest =>
      rw [natural?, foldlM_digitValue?]
      · by_cases all : (c :: rest).all Char.isDigit = true
        · rw [if_pos all, Option.some.injEq]
          exact ⟨fun same => ⟨⟨List.cons_ne_nil c rest, List.all_eq_true.1 all⟩, same⟩,
            fun decimal => decimal.2⟩
        · rw [if_neg all]
          exact ⟨fun none => (by cases none),
            fun decimal => absurd (List.all_eq_true.2 decimal.1.2) all⟩
      · exact List.cons_ne_nil c rest

/-- A sign is no digit. -/
theorem IsDecimal.head {c : Char} {rest : List Char} (decimal : IsDecimal (c :: rest)) :
    c ≠ '-' ∧ c ≠ '+' := by
  have digit := decimal.2 c List.mem_cons_self
  constructor <;> rintro rfl <;> cases digit

theorem isDecimal_toDigits (value : Nat) : IsDecimal (Nat.toDigits 10 value) :=
  ⟨Nat.toDigits_ne_nil, fun _ digit => Nat.isDigit_of_mem_toDigits (by decide) (by decide) digit⟩

/-! ## Literals -/

theorem inInt64_iff {value : Int} : inInt64 value = true ↔
    -0x8000000000000000 ≤ value ∧ value < 0x8000000000000000 := by
  simp [inInt64]

/-- A text is read as a number just when it is a literal for it and the number fits. -/
theorem int64?_eq_some_iff {text : List Char} {value : Int} :
    int64? text = some value ↔
      Spells text value ∧ -0x8000000000000000 ≤ value ∧ value < 0x8000000000000000 := by
  unfold int64?
  rw [Option.filter_eq_some_iff, inInt64_iff]
  refine and_congr_left fun _ => ⟨fun read => ?_, fun spelt => ?_⟩
  · split at read
    · obtain ⟨_, found, rfl⟩ := Option.map_eq_some_iff.1 read
      obtain ⟨number, digits, ⟨⟩⟩ := Option.bind_eq_some_iff.1 found
      obtain ⟨decimal, rfl⟩ := natural?_eq_some_iff.1 digits
      exact .minus decimal
    · obtain ⟨number, digits, rfl⟩ := Option.map_eq_some_iff.1 read
      obtain ⟨decimal, rfl⟩ := natural?_eq_some_iff.1 digits
      exact .plus decimal
    · obtain ⟨number, digits, rfl⟩ := Option.map_eq_some_iff.1 read
      obtain ⟨decimal, rfl⟩ := natural?_eq_some_iff.1 digits
      exact .plain decimal
  · cases spelt with
    | plain decimal =>
        split
        · exact absurd rfl decimal.head.1
        · exact absurd rfl decimal.head.2
        · rw [natural?_eq_some_iff.2 ⟨decimal, rfl⟩]
          rfl
    | plus decimal => exact congrArg (Option.map Int.ofNat) (natural?_eq_some_iff.2 ⟨decimal, rfl⟩)
    | minus decimal =>
        have read := natural?_eq_some_iff.2 ⟨decimal, rfl⟩
        simp only [read]
        rfl

theorem spells_intDigits (value : Int) : Spells (intDigits value) value := by
  have decimal := isDecimal_toDigits value.natAbs
  unfold intDigits
  dsimp only
  split
  · next negative =>
    have spelt := Spells.minus decimal
    rwa [Nat.ofDigitChars_ten_toDigits, Int.ofNat_natAbs_of_nonpos (by omega), Int.neg_neg] at spelt
  · next positive =>
    have spelt := Spells.plain decimal
    rwa [Nat.ofDigitChars_ten_toDigits, Int.natAbs_of_nonneg (by omega)] at spelt

/-- The literal that is written for a number is read as that number. -/
theorem int64?_intDigits {value : Int} (least : -0x8000000000000000 ≤ value)
    (most : value < 0x8000000000000000) : int64? (intDigits value) = some value :=
  int64?_eq_some_iff.2 ⟨spells_intDigits value, least, most⟩

/-- A text that is not a literal at its first character is none. -/
theorem Spells.head {c : Char} {rest : List Char} {value : Int} (spelt : Spells (c :: rest) value) :
    c = '-' ∨ c = '+' ∨ c.isDigit = true := by
  cases spelt with
  | plain decimal => exact .inr (.inr (decimal.2 c List.mem_cons_self))
  | plus decimal => exact .inr (.inl rfl)
  | minus decimal => exact .inl rfl

end RenderFarm.Text
