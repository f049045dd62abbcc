import RenderFarm.Proofs.Color.Spelling
import RenderFarm.Proofs.Text.Encoding
import RenderFarm.Proofs.Traversal

/-!
# Colors read, written and packed

A color can also be read by the bytes of its text: behind one hash or none there are to be six bytes,
all of them digits, and these are read as one number in base sixteen, which is the word of the color.
Both ways of reading agree (`ofText?_eq_ofHex?`). Main statement: `text_and_word_round_trip`.
-/

namespace RenderFarm.Color

open Text

/-- The value of a byte that is a hexadecimal digit of either case. -/
def hexByte? (byte : UInt8) : Option Nat :=
  if 0x30 ≤ byte && byte ≤ 0x39 then some (byte.toNat - 0x30)
  else if 0x61 ≤ byte && byte ≤ 0x66 then some (byte.toNat - 0x61 + 10)
  else if 0x41 ≤ byte && byte ≤ 0x46 then some (byte.toNat - 0x41 + 10)
  else none

/-- The word that is written in base sixteen, with a plus sign in front or without one; none where
no digit stands, where something else stands among them, and for a number above 32 bits. -/
def word? (bytes : List UInt8) : Option UInt32 :=
  let digits := if bytes.head? = some 0x2B then bytes.tail else bytes
  if digits = [] then none
  else
    (digits.mapM hexByte?).bind fun values =>
      let number := values.foldl (fun above value => 16 * above + value) 0
      if number < 0x100000000 then some (.ofNat number) else none

/-- The text behind a hash, if one is in front. -/
def unmarked : List Char → List Char
  | '#' :: rest => rest
  | text => text

/-- Reads a color by the bytes of its text. -/
def ofText? (text : String) : Option Color :=
  let digits := encode (unmarked text.toList)
  if digits.length = 6 ∧ digits.all fun byte => (hexByte? byte).isSome then
    (word? digits).map ofPacked
  else none

/-! ## Digits by their bytes -/

theorem hexByte?_of_le {byte : UInt8} (wide : 0x80 ≤ byte.toNat) : hexByte? byte = none := by
  unfold hexByte?
  simp only [Bool.and_eq_true, decide_eq_true_eq, UInt8.le_iff_toNat_le, UInt8.reduceToNat]
  rw [if_neg (by omega), if_neg (by omega), if_neg (by omega)]

/-- A character is a digit just when its bytes are digits, and then it is one byte of the same
value. -/
theorem mapM_hexByte?_encodeChar (c : Char) :
    (String.utf8EncodeChar c).mapM hexByte? = (hexValue? c).map ([·]) := by
  rcases Nat.lt_or_ge c.toNat 0x80 with ascii | wide
  · have each : ∀ code < 0x80, [UInt8.ofNat code].mapM hexByte? =
        (hexValue? (Char.ofNat code)).map ([·]) := by decide
    have here := each c.toNat ascii
    rwa [Char.ofNat_toNat, ← encodeChar_of_lt ascii] at here
  · obtain ⟨lead, tail, spelt, whole, -⟩ := encodeChar_whole wide
    obtain ⟨low, high, leads, -⟩ := whole
    have above := le_of_followers? leads
    have plain : hexValue? c = none := by
      refine Option.eq_none_iff_forall_not_mem.2 fun value read => ?_
      have below : c.toNat ≤ 102 := toNat_le_of_hexValue? read
      omega
    rw [spelt, List.mapM_cons, hexByte?_of_le (by omega), plain]
    rfl

theorem mapM_hexByte?_encode (digits : List Char) :
    (encode digits).mapM hexByte? = digits.mapM hexValue? := by
  induction digits with
  | nil => rfl
  | cons c rest ih =>
    rw [encode_cons, List.mapM_append, mapM_hexByte?_encodeChar, ih, List.mapM_cons]
    cases hexValue? c with
    | none => rfl
    | some value => rfl

/-! ## Six digits as one number -/

/-- The color of six values below sixteen, two for each channel. -/
def ofValues? : List Nat → Option Color
  | [r₁, r₂, g₁, g₂, b₁, b₂] =>
    some ⟨.ofNat (16 * r₁ + r₂), .ofNat (16 * g₁ + g₂), .ofNat (16 * b₁ + b₂)⟩
  | _ => none

theorem ofValues?_eq_none {values : List Nat} (other : values.length ≠ 6) :
    ofValues? values = none := by
  unfold ofValues?
  split
  · exact absurd rfl other
  · rfl

theorem ofDigits?_eq (digits : List Char) :
    ofDigits? digits = (digits.mapM hexValue?).bind ofValues? := by
  unfold ofDigits?
  split
  · simp only [byte?, List.mapM_cons, List.mapM_nil, Option.bind_eq_bind, Option.pure_def,
      Option.bind_assoc, Option.bind_some]
    rfl
  · next other =>
    cases read : digits.mapM hexValue? with
    | none => rfl
    | some values =>
      refine (ofValues?_eq_none fun six => ?_).symm
      rw [length_of_mapM read] at six
      match digits, six with
      | [r₁, r₂, g₁, g₂, b₁, b₂], _ => exact other r₁ r₂ g₁ g₂ b₁ b₂ rfl

theorem ofHex?_eq (text : List Char) : ofHex? text = ofDigits? (unmarked text) := by
  fun_cases unmarked text with
  | case1 rest => rfl
  | case2 text plain =>
    unfold ofHex?
    split
    · exact absurd rfl (plain _)
    · rfl

theorem lt_of_mapM_hexValue? {digits : List Char} {values : List Nat}
    (read : digits.mapM hexValue? = some values) {value : Nat} (member : value ∈ values) :
    value < 16 := by
  have found : some value ∈ digits.map hexValue? :=
    mapM_eq_some_iff.1 read ▸ List.mem_map_of_mem member
  obtain ⟨c, -, digit⟩ := List.mem_map.1 found
  exact (hexValue?_eq_some_iff.1 digit).lt

/-- The word of six digits is the word of the color that they are in pairs. -/
theorem word?_of_six {bytes : List UInt8} {values : List Nat}
    (read : bytes.mapM hexByte? = some values) (six : values.length = 6)
    (below : ∀ value ∈ values, value < 16) : (word? bytes).map ofPacked = ofValues? values := by
  match values, six with
  | [r₁, r₂, g₁, g₂, b₁, b₂], _ =>
    simp only [List.forall_mem_cons] at below
    cases bytes with
    | nil => cases read
    | cons byte rest =>
      -- No plus sign is dropped, for it is no digit.
      have unsigned : (byte :: rest).head? ≠ some 0x2B := by
        intro plus
        obtain rfl : byte = 0x2B := Option.some.inj plus
        cases read
      have fits : [r₁, r₂, g₁, g₂, b₁, b₂].foldl (fun above value => 16 * above + value) 0 <
          0x100000000 := by
        simp only [List.foldl_cons, List.foldl_nil]
        omega
      simp only [word?, if_neg unsigned, if_neg (List.cons_ne_nil byte rest), read,
        Option.bind_some, if_pos fits, Option.map_some, ofValues?, Option.some.injEq]
      simp only [ofPacked, List.foldl_cons, List.foldl_nil, mk.injEq, ← UInt8.toNat_inj,
        UInt8.toNat_ofNat', UInt32.toNat_ofNat']
      omega

/-- Both ways of reading find the same color. -/
theorem ofText?_eq_ofHex? (text : String) : ofText? text = ofHex? text.toList := by
  rw [ofHex?_eq, ofDigits?_eq]
  unfold ofText?
  generalize unmarked text.toList = digits
  dsimp only
  rw [all_isSome_eq, mapM_hexByte?_encode]
  cases read : digits.mapM hexValue? with
  | none => exact if_neg fun six => by cases six.2
  | some values =>
    have bytes : (encode digits).mapM hexByte? = some values := by rw [mapM_hexByte?_encode, read]
    rw [← length_of_mapM bytes, Option.bind_some]
    by_cases six : values.length = 6
    · rw [if_pos ⟨six, rfl⟩, word?_of_six bytes six fun _ => lt_of_mapM_hexValue? read]
    · rw [if_neg fun both => six both.1, ofValues?_eq_none six]

/-! ## Written colors -/

theorem standsFor_hexDigit {value : Nat} (below : value < 16) : StandsFor (hexDigit value) value := by
  have each : ∀ value < 16, StandsFor (hexDigit value) value := by decide
  exact each value below

theorem spellsByte_byteDigits (byte : UInt8) :
    SpellsByte (hexDigit (byte.toNat / 16)) (hexDigit (byte.toNat % 16)) byte := by
  have bound := byte.toNat_lt
  exact ⟨byte.toNat / 16, byte.toNat % 16, standsFor_hexDigit (by omega),
    standsFor_hexDigit (by omega), (Nat.div_add_mod byte.toNat 16).symm⟩

/-- A color is spelt by the digits that are written for it. -/
theorem speltBy_digits (color : Color) : SpeltBy color.digits color :=
  .digits (spellsByte_byteDigits color.red) (spellsByte_byteDigits color.green)
    (spellsByte_byteDigits color.blue)

/-! ## Words -/

/-- A packed color takes 24 bits. -/
theorem pack_lt (color : Color) : color.pack.toNat < 0x1000000 := by
  have red := color.red.toNat_lt
  have green := color.green.toNat_lt
  have blue := color.blue.toNat_lt
  rw [toNat_pack]
  omega

/-- The top byte of a packed color is zero. -/
theorem pack_shiftRight (color : Color) : color.pack >>> 24 = 0 := by
  apply UInt32.toNat_inj.1
  rw [UInt32.toNat_shiftRight]
  exact (Nat.shiftRight_eq_div_pow _ _).trans (Nat.div_eq_of_lt color.pack_lt)

theorem pack_ofPacked_eq_and (word : UInt32) : (ofPacked word).pack = word &&& 0x00FFFFFF := by
  apply UInt32.toNat_inj.1
  rw [pack_ofPacked, UInt32.toNat_and]
  exact (Nat.and_two_pow_sub_one_eq_mod word.toNat 24).symm

/-- Just the texts of six hexadecimal digits of either case, with one hash in front or none, are read
as a color, and its channels are the three numbers of two digits; reading by bytes is the same. A
color is read from the text that is written for it, with or without the hash, and it is the color of
its own word. The word of the color of a word is that word without its top byte. -/
theorem text_and_word_round_trip :
    (∀ (text : String) (color : Color),
      ofHex? text.toList = some color ↔ Spells text.toList color) ∧
    (∀ text : String, ofText? text = ofHex? text.toList) ∧
    (∀ color : Color, ofHex? color.hex = some color ∧ ofHex? color.digits = some color ∧
      ofPacked color.pack = color) ∧
    ∀ word : UInt32, (ofPacked word).pack = word &&& 0x00FFFFFF := by
  refine ⟨fun text color => ofHex?_eq_some_iff, ofText?_eq_ofHex?, fun color => ?_,
    pack_ofPacked_eq_and⟩
  refine ⟨ofHex?_eq_some_iff.2 (.inr ⟨color.digits, rfl, speltBy_digits color⟩), ?_,
    ofPacked_pack color⟩
  exact ofHex?_eq_some_iff.2 (.inl (speltBy_digits color))

end RenderFarm.Color
