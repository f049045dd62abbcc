import Mathlib.Data.List.Infix
import Mathlib.Tactic.SplitIfs
import RenderFarm.Text.Utf8

/-!
# UTF-8, encoded and decoded

A character of one byte is that byte; any other is a lead byte with the whole tail that it asks for
(`encodeChar_whole`), and every such sequence is a character (`Whole.encodeChar_assemble`). So lossy
decoding reads a character where one stands (`decodeLossy_encodeChar_append`), and no text in front
changes how the bytes behind it are read (`decodeLossy_encode_append`).

`Reads` says what lossy decoding is for bytes of any kind, in terms of the encoder alone: where no
character stands, one replacement stands for the longest run of bytes that begins one, or for a
single byte that begins none. Main statement: `reads_iff`.
-/

namespace RenderFarm.Text

/-- The bytes of a text. -/
def encode (text : List Char) : List UInt8 :=
  text.flatMap String.utf8EncodeChar

@[simp] theorem encode_cons (c : Char) (text : List Char) :
    encode (c :: text) = String.utf8EncodeChar c ++ encode text :=
  rfl

/-- The bytes of a string. -/
def bytesOf (text : String) : List UInt8 :=
  text.toUTF8.data.toList

theorem bytesOf_eq_encode (text : String) : bytesOf text = encode text.toList := by
  unfold bytesOf encode
  rw [String.toUTF8_eq_toByteArray, ← String.utf8Encode_toList, List.utf8Encode,
    List.data_toByteArray]

@[simp] theorem bytesOf_append (text more : String) :
    bytesOf (text ++ more) = bytesOf text ++ bytesOf more := by
  simp only [bytesOf, String.toUTF8_eq_toByteArray, String.toByteArray_append,
    ByteArray.toList_data_append]

theorem length_bytesOf (text : String) : (bytesOf text).length = text.utf8ByteSize :=
  rfl

/-! ## Lead bytes and their tails -/

/-- Bytes that may follow a lead byte: the first between `low` and `high`, the others between 80
and BF. -/
def Follows (low high : UInt8) : List UInt8 → Prop
  | [] => True
  | byte :: rest => (low ≤ byte ∧ byte ≤ high) ∧ Follows 0x80 0xBF rest

/-- A lead byte and the whole tail that it asks for. -/
def Whole (lead : UInt8) (tail : List UInt8) : Prop :=
  ∃ low high, followers? lead = some (tail.length, low, high) ∧ Follows low high tail

/-- The lead bytes by the number of bytes that follow. The limits on the first of those leave out
the longer spellings of a character, the surrogates and all above 10FFFF. -/
theorem followers?_eq_some_iff {lead low high : UInt8} {count : Nat} :
    followers? lead = some (count, low, high) ↔
      (count = 1 ∧ (0xC2 ≤ lead.toNat ∧ lead.toNat ≤ 0xDF) ∧ low = 0x80 ∧ high = 0xBF) ∨
      (count = 2 ∧ (0xE0 ≤ lead.toNat ∧ lead.toNat ≤ 0xEF) ∧
        low = (if lead.toNat = 0xE0 then 0xA0 else 0x80) ∧
        high = (if lead.toNat = 0xED then 0x9F else 0xBF)) ∨
      (count = 3 ∧ (0xF0 ≤ lead.toNat ∧ lead.toNat ≤ 0xF4) ∧
        low = (if lead.toNat = 0xF0 then 0x90 else 0x80) ∧
        high = (if lead.toNat = 0xF4 then 0x8F else 0xBF)) := by
  simp only [followers?, Bool.and_eq_true, decide_eq_true_eq, beq_iff_eq, UInt8.le_iff_toNat_le,
    ← UInt8.toNat_inj, UInt8.reduceToNat]
  split_ifs <;>
    simp only [Option.some.injEq, Prod.mk.injEq, ← UInt8.toNat_inj, UInt8.reduceToNat, false_iff] <;>
    omega

/-- A byte that leads a sequence is no ASCII byte. -/
theorem le_of_followers? {lead low high : UInt8} {count : Nat}
    (leads : followers? lead = some (count, low, high)) : 0xC2 ≤ lead.toNat := by
  have := followers?_eq_some_iff.1 leads
  omega

theorem isTail_iff {byte : UInt8} : isTail byte ↔ 0x80 ≤ byte.toNat ∧ byte.toNat ≤ 0xBF := by
  simp [isTail, UInt8.le_iff_toNat_le]

/-- The sequences of two, three and four bytes. -/
theorem whole_iff {lead : UInt8} {tail : List UInt8} :
    Whole lead tail ↔
      (∃ b, tail = [b] ∧ 0xC2 ≤ lead.toNat ∧ lead.toNat ≤ 0xDF ∧ isTail b) ∨
      (∃ b₁ b₂, tail = [b₁, b₂] ∧ 0xE0 ≤ lead.toNat ∧ lead.toNat ≤ 0xEF ∧
        (lead.toNat = 0xE0 → 0xA0 ≤ b₁.toNat) ∧ (lead.toNat = 0xED → b₁.toNat ≤ 0x9F) ∧
        isTail b₁ ∧ isTail b₂) ∨
      (∃ b₁ b₂ b₃, tail = [b₁, b₂, b₃] ∧ 0xF0 ≤ lead.toNat ∧ lead.toNat ≤ 0xF4 ∧
        (lead.toNat = 0xF0 → 0x90 ≤ b₁.toNat) ∧ (lead.toNat = 0xF4 → b₁.toNat ≤ 0x8F) ∧
        isTail b₁ ∧ isTail b₂ ∧ isTail b₃) := by
  constructor
  · rintro ⟨low, high, leads, follows⟩
    rcases followers?_eq_some_iff.1 leads with
      ⟨two, ⟨first, last⟩, rfl, rfl⟩ | ⟨three, ⟨first, last⟩, rfl, rfl⟩ |
      ⟨four, ⟨first, last⟩, rfl, rfl⟩
    · obtain ⟨b, rfl⟩ := List.length_eq_one_iff.1 two
      exact .inl ⟨b, rfl, first, last, isTail_iff.2 follows.1⟩
    · obtain ⟨b₁, b₂, rfl⟩ := List.length_eq_two.1 three
      refine .inr (.inl ⟨b₁, b₂, rfl, first, last, ?_⟩)
      simp only [Follows, UInt8.le_iff_toNat_le, isTail_iff] at follows ⊢
      split_ifs at follows <;> simp only [UInt8.reduceToNat] at follows <;> omega
    · obtain ⟨b₁, b₂, b₃, rfl⟩ := List.length_eq_three.1 four
      refine .inr (.inr ⟨b₁, b₂, b₃, rfl, first, last, ?_⟩)
      simp only [Follows, UInt8.le_iff_toNat_le, isTail_iff] at follows ⊢
      split_ifs at follows <;> simp only [UInt8.reduceToNat] at follows <;> omega
  · rintro (⟨b, rfl, first, last, inside⟩ | ⟨b₁, b₂, rfl, first, last, inside⟩ |
      ⟨b₁, b₂, b₃, rfl, first, last, inside⟩)
    · refine ⟨0x80, 0xBF, followers?_eq_some_iff.2 (.inl ⟨rfl, ⟨first, last⟩, rfl, rfl⟩), ?_⟩
      exact ⟨isTail_iff.1 inside, trivial⟩
    · refine ⟨_, _, followers?_eq_some_iff.2 (.inr (.inl ⟨rfl, ⟨first, last⟩, rfl, rfl⟩)), ?_⟩
      simp only [Follows, UInt8.le_iff_toNat_le, isTail_iff, and_true] at inside ⊢
      split_ifs <;> simp only [UInt8.reduceToNat] <;> omega
    · refine ⟨_, _, followers?_eq_some_iff.2 (.inr (.inr ⟨rfl, ⟨first, last⟩, rfl, rfl⟩)), ?_⟩
      simp only [Follows, UInt8.le_iff_toNat_le, isTail_iff, and_true] at inside ⊢
      split_ifs <;> simp only [UInt8.reduceToNat] <;> omega

/-! ## Characters and sequences -/

theorem assemble_one (lead b : UInt8) :
    assemble lead [b] = Char.ofNat (64 * (lead.toNat % 32) + b.toNat % 64) := by
  simp [assemble]

theorem assemble_two (lead b₁ b₂ : UInt8) :
    assemble lead [b₁, b₂] =
      Char.ofNat (64 * (64 * (lead.toNat % 16) + b₁.toNat % 64) + b₂.toNat % 64) := by
  simp [assemble]

theorem assemble_three (lead b₁ b₂ b₃ : UInt8) :
    assemble lead [b₁, b₂, b₃] =
      Char.ofNat (64 * (64 * (64 * (lead.toNat % 8) + b₁.toNat % 64) + b₂.toNat % 64) +
        b₃.toNat % 64) := by
  simp [assemble]

/-- A character below 80 is one byte. -/
theorem encodeChar_of_lt {c : Char} (ascii : c.toNat < 0x80) :
    String.utf8EncodeChar c = [.ofNat c.toNat] :=
  if_pos (Nat.le_of_lt_succ ascii)

/-- Any other character is a lead byte with its whole tail, and they spell it. -/
theorem encodeChar_whole {c : Char} (wide : 0x80 ≤ c.toNat) :
    ∃ lead tail, String.utf8EncodeChar c = lead :: tail ∧ Whole lead tail ∧
      assemble lead tail = c := by
  have valid : c.toNat < 0xD800 ∨ 0xDFFF < c.toNat ∧ c.toNat < 0x110000 := c.valid
  have spells : ∀ {code : Nat}, code = c.toNat → Char.ofNat code = c := by
    rintro _ rfl
    exact Char.ofNat_toNat c
  have code : c.val.toNat = c.toNat := rfl
  unfold String.utf8EncodeChar
  simp only [code]
  rw [if_neg (by omega)]
  split
  · next two =>
    refine ⟨_, _, rfl, whole_iff.2 (.inl ⟨_, rfl, ?_⟩), ?_⟩
    · simp only [isTail_iff, UInt8.toNat_ofNat']
      omega
    · rw [assemble_one]
      simp only [UInt8.toNat_ofNat']
      exact spells (by omega)
  split
  · next three =>
    refine ⟨_, _, rfl, whole_iff.2 (.inr (.inl ⟨_, _, rfl, ?_⟩)), ?_⟩
    · simp only [isTail_iff, UInt8.toNat_ofNat']
      omega
    · rw [assemble_two]
      simp only [UInt8.toNat_ofNat']
      exact spells (by omega)
  · next four =>
    refine ⟨_, _, rfl, whole_iff.2 (.inr (.inr ⟨_, _, _, rfl, ?_⟩)), ?_⟩
    · simp only [isTail_iff, UInt8.toNat_ofNat']
      omega
    · rw [assemble_three]
      simp only [UInt8.toNat_ofNat']
      exact spells (by omega)

theorem val_ofNat {code : Nat} (valid : code < 0xD800 ∨ 0xDFFF < code ∧ code < 0x110000) :
    (Char.ofNat code).val.toNat = code := by
  rw [Char.ofNat, dif_pos valid]
  rfl

/-- Every lead byte with its whole tail is a character. -/
theorem Whole.encodeChar_assemble {lead : UInt8} {tail : List UInt8} (whole : Whole lead tail) :
    String.utf8EncodeChar (assemble lead tail) = lead :: tail := by
  unfold String.utf8EncodeChar
  rcases whole_iff.1 whole with ⟨b, rfl, sizes⟩ | ⟨b₁, b₂, rfl, sizes⟩ | ⟨b₁, b₂, b₃, rfl, sizes⟩
  · simp only [isTail_iff] at sizes
    rw [assemble_one, val_ofNat (by omega)]
    simp only
    rw [if_neg (by omega), if_pos (by omega)]
    simp only [List.cons.injEq, ← UInt8.toNat_inj, UInt8.toNat_ofNat', and_true]
    omega
  · simp only [isTail_iff] at sizes
    rw [assemble_two, val_ofNat (by omega)]
    simp only
    rw [if_neg (by omega), if_neg (by omega), if_pos (by omega)]
    simp only [List.cons.injEq, ← UInt8.toNat_inj, UInt8.toNat_ofNat', and_true]
    omega
  · simp only [isTail_iff] at sizes
    rw [assemble_three, val_ofNat (by omega)]
    simp only
    rw [if_neg (by omega), if_neg (by omega), if_neg (by omega)]
    simp only [List.cons.injEq, ← UInt8.toNat_inj, UInt8.toNat_ofNat', and_true]
    omega

/-! ## Tails -/

/-- Any front of an admissible tail is admissible. -/
theorem Follows.of_isPrefix {low high : UInt8} {front bytes : List UInt8}
    (follows : Follows low high bytes) (opens : front <+: bytes) : Follows low high front := by
  induction bytes generalizing low high front with
  | nil =>
    cases List.prefix_nil.1 opens
    trivial
  | cons byte rest ih =>
    rcases List.prefix_cons_iff.1 opens with rfl | ⟨front, rfl, behind⟩
    · trivial
    · exact ⟨follows.1, ih follows.2 behind⟩

theorem tailOf_isPrefix (count : Nat) (low high : UInt8) (bytes : List UInt8) :
    tailOf count low high bytes <+: bytes := by
  fun_induction tailOf count low high bytes with
  | case1 low high count byte rest inside ih => exact (List.prefix_cons_inj byte).2 ih
  | case2 => exact List.nil_prefix
  | case3 => exact List.nil_prefix

theorem length_tailOf_le (count : Nat) (low high : UInt8) (bytes : List UInt8) :
    (tailOf count low high bytes).length ≤ count := by
  fun_induction tailOf count low high bytes with
  | case1 low high count byte rest inside ih => exact Nat.succ_le_succ ih
  | case2 => exact Nat.zero_le _
  | case3 => exact Nat.zero_le _

theorem follows_tailOf (count : Nat) (low high : UInt8) (bytes : List UInt8) :
    Follows low high (tailOf count low high bytes) := by
  fun_induction tailOf count low high bytes with
  | case1 low high count byte rest inside ih =>
    exact ⟨by simpa using inside, ih⟩
  | case2 => trivial
  | case3 => trivial

/-- No admissible tail at the front of the bytes is longer than the one taken. -/
theorem prefix_tailOf {count : Nat} {low high : UInt8} {front bytes : List UInt8}
    (opens : front <+: bytes) (follows : Follows low high front) (short : front.length ≤ count) :
    front <+: tailOf count low high bytes := by
  induction bytes generalizing count low high front with
  | nil =>
    cases List.prefix_nil.1 opens
    exact List.nil_prefix
  | cons byte rest ih =>
    rcases List.prefix_cons_iff.1 opens with rfl | ⟨front, rfl, behind⟩
    · exact List.nil_prefix
    · obtain ⟨inside, follows⟩ := follows
      cases count with
      | zero => simp at short
      | succ count =>
        rw [tailOf, if_pos (by simpa using inside)]
        exact (List.prefix_cons_inj byte).2 (ih behind follows (Nat.le_of_succ_le_succ short))

/-- Behind a whole tail nothing more is taken. -/
theorem tailOf_append {low high : UInt8} {tail : List UInt8} (follows : Follows low high tail)
    (rest : List UInt8) : tailOf tail.length low high (tail ++ rest) = tail :=
  ((prefix_tailOf (List.prefix_append tail rest) follows (Nat.le_refl _)).eq_of_length_le
    (length_tailOf_le _ _ _ _)).symm

/-! ## Decoding encoded text -/

theorem Whole.decodeHead {lead : UInt8} {tail : List UInt8} (whole : Whole lead tail)
    (rest : List UInt8) :
    decodeHead lead (tail ++ rest) = (assemble lead tail, tail.length) := by
  obtain ⟨low, high, leads, follows⟩ := whole
  have wide : ¬lead < 0x80 := by
    have above := le_of_followers? leads
    simp only [UInt8.lt_iff_toNat_lt, UInt8.reduceToNat]
    omega
  simp only [Text.decodeHead, if_neg wide, leads, tailOf_append follows, if_true]

/-- A character is read where its bytes stand, and reading starts afresh behind them. -/
theorem decodeLossy_encodeChar_append (c : Char) (bytes : List UInt8) :
    decodeLossy (String.utf8EncodeChar c ++ bytes) = c :: decodeLossy bytes := by
  rcases Nat.lt_or_ge c.toNat 0x80 with ascii | wide
  · have byte : (UInt8.ofNat c.toNat).toNat = c.toNat := Nat.mod_eq_of_lt (by omega)
    have small : UInt8.ofNat c.toNat < 0x80 := UInt8.lt_iff_toNat_lt.2 (byte.symm ▸ ascii)
    rw [encodeChar_of_lt ascii, List.singleton_append, decodeLossy]
    simp only [decodeHead, if_pos small, byte, Char.ofNat_toNat, List.drop_zero]
  · obtain ⟨lead, tail, spelt, whole, assembled⟩ := encodeChar_whole wide
    rw [spelt, List.cons_append, decodeLossy]
    simp only [whole.decodeHead, assembled, List.drop_left]

/-- Text in front of any bytes is read as it is, and the bytes as they are read alone. -/
theorem decodeLossy_encode_append (text : List Char) (bytes : List UInt8) :
    decodeLossy (encode text ++ bytes) = text ++ decodeLossy bytes := by
  induction text with
  | nil => rfl
  | cons c text ih =>
    rw [encode_cons, List.append_assoc, decodeLossy_encodeChar_append, ih, List.cons_append]

theorem decodeLossy_encode (text : List Char) : decodeLossy (encode text) = text := by
  simpa [decodeLossy] using decodeLossy_encode_append text []

/-- A string is given by its bytes. -/
theorem bytesOf_injective : Function.Injective bytesOf := fun text text' same => by
  rw [bytesOf_eq_encode, bytesOf_eq_encode] at same
  rw [← String.toList_inj, ← decodeLossy_encode text.toList, same, decodeLossy_encode]

/-! ## Decoding bytes of any kind -/

/-- Bytes that begin a character. -/
def Begins (front : List UInt8) : Prop :=
  ∃ c, front <+: String.utf8EncodeChar c

/-- The bytes that one replacement stands for: no character stands at their place, and they are the
longest front that begins one, or one byte where none does. -/
structure Broken (front rest : List UInt8) : Prop where
  noCharacter : ∀ c, ¬String.utf8EncodeChar c <+: front ++ rest
  nonempty : front ≠ []
  begins : front.length = 1 ∨ Begins front
  longest : ∀ longer, longer <+: front ++ rest → Begins longer → longer.length ≤ front.length

/-- How bytes are read as text. -/
inductive Reads : List UInt8 → List Char → Prop
  | nil : Reads [] []
  | character {rest : List UInt8} {text : List Char} (c : Char) (reads : Reads rest text) :
    Reads (String.utf8EncodeChar c ++ rest) (c :: text)
  | broken {front rest : List UInt8} {text : List Char} (broken : Broken front rest)
    (reads : Reads rest text) : Reads (front ++ rest) (replacement :: text)

/-- An admissible tail can be made longer. -/
theorem Follows.exists_append {low high : UInt8} {tail : List UInt8} {count : Nat}
    (follows : Follows low high tail) (room : low ≤ high) (short : tail.length ≤ count) :
    ∃ more, (tail ++ more).length = count ∧ Follows low high (tail ++ more) := by
  induction count generalizing low high tail with
  | zero =>
    cases List.length_eq_zero_iff.1 (Nat.le_zero.1 short)
    exact ⟨[], rfl, trivial⟩
  | succ count ih =>
    cases tail with
    | nil =>
      obtain ⟨more, full, follows⟩ := @ih 0x80 0xBF [] trivial (by decide) (Nat.zero_le _)
      exact ⟨low :: more, congrArg Nat.succ full, ⟨UInt8.le_refl low, room⟩, follows⟩
    | cons byte tail =>
      obtain ⟨more, full, rest⟩ := ih follows.2 (by decide) (Nat.le_of_succ_le_succ short)
      exact ⟨more, congrArg Nat.succ full, follows.1, rest⟩

/-- A character whose first byte is above 7F is that byte with its whole tail. -/
theorem whole_of_encodeChar {c : Char} {lead : UInt8} {tail : List UInt8}
    (spelt : String.utf8EncodeChar c = lead :: tail) (wide : 0x80 ≤ lead.toNat) :
    Whole lead tail := by
  rcases Nat.lt_or_ge c.toNat 0x80 with ascii | above
  · rw [encodeChar_of_lt ascii] at spelt
    have value : c.toNat % 256 = lead.toNat := congrArg UInt8.toNat (List.cons.inj spelt).1
    omega
  · obtain ⟨first, full, spelt', whole, -⟩ := encodeChar_whole above
    rw [spelt'] at spelt
    cases spelt
    exact whole

/-- A byte above 7F and what follows it begin a character just when the byte leads a sequence and the
others are a front of its tail. -/
theorem begins_cons_iff {lead : UInt8} {tail : List UInt8} (wide : 0x80 ≤ lead.toNat) :
    Begins (lead :: tail) ↔ ∃ count low high, followers? lead = some (count, low, high) ∧
      tail.length ≤ count ∧ Follows low high tail := by
  constructor
  · rintro ⟨c, more, spelt⟩
    obtain ⟨low, high, leads, follows⟩ := whole_of_encodeChar spelt.symm wide
    refine ⟨_, low, high, leads, ?_, follows.of_isPrefix (List.prefix_append tail more)⟩
    exact (List.prefix_append tail more).length_le
  · rintro ⟨count, low, high, leads, short, follows⟩
    have room : low ≤ high := by
      rw [UInt8.le_iff_toNat_le]
      rcases followers?_eq_some_iff.1 leads with ⟨-, -, rfl, rfl⟩ | ⟨-, -, rfl, rfl⟩ |
        ⟨-, -, rfl, rfl⟩
      · decide
      · split_ifs <;> simp only [UInt8.reduceToNat] <;> omega
      · split_ifs <;> simp only [UInt8.reduceToNat] <;> omega
    obtain ⟨more, rfl, follows⟩ := follows.exists_append room short
    have whole : Whole lead (tail ++ more) := ⟨low, high, leads, follows⟩
    exact ⟨_, more, whole.encodeChar_assemble.symm⟩

/-- Where no character stands, a byte above 7F is broken together with the longest tail that begins
one. -/
theorem broken_of_longest {lead : UInt8} {tail rest : List UInt8} (wide : 0x80 ≤ lead.toNat)
    (unfinished : ¬Whole lead tail) (begins : tail = [] ∨ Begins (lead :: tail))
    (longest : ∀ longer, longer <+: tail ++ rest → Begins (lead :: longer) → longer <+: tail) :
    Broken (lead :: tail) rest where
  noCharacter := by
    intro c stands
    cases spelt : String.utf8EncodeChar c with
    | nil => exact String.utf8EncodeChar_ne_nil spelt
    | cons first full =>
      rw [spelt] at stands
      obtain ⟨rfl, inside⟩ := List.cons_prefix_cons.1 stands
      have whole := whole_of_encodeChar spelt wide
      have within : full <+: tail := longest full inside ⟨c, spelt ▸ List.prefix_refl _⟩
      -- A character inside `tail` is all of it, for no longer tail begins one.
      refine unfinished (within.eq_of_length_le ?_ ▸ whole)
      rcases begins with rfl | begins
      · exact Nat.zero_le _
      · obtain ⟨_, _, _, leads, short, -⟩ := (begins_cons_iff wide).1 begins
        obtain ⟨_, _, leads', -⟩ := whole
        cases leads.symm.trans leads'
        exact short
  nonempty := List.cons_ne_nil lead tail
  begins := begins.imp (fun alone => by rw [alone, List.length_singleton]) id
  longest := by
    intro longer front starts
    cases longer with
    | nil => exact Nat.zero_le _
    | cons first longer =>
      obtain ⟨rfl, inside⟩ := List.cons_prefix_cons.1 front
      exact Nat.succ_le_succ (longest longer inside starts).length_le

/-- The longest tail that there is breaks off when it is not whole. -/
theorem broken_tailOf {lead low high : UInt8} {count : Nat} {rest : List UInt8}
    (wide : 0x80 ≤ lead.toNat) (leads : followers? lead = some (count, low, high))
    (partly : (tailOf count low high rest).length ≠ count) :
    Broken (lead :: tailOf count low high rest)
      (rest.drop (tailOf count low high rest).length) := by
  have short := length_tailOf_le count low high rest
  have whole : tailOf count low high rest ++ rest.drop (tailOf count low high rest).length = rest :=
    (List.prefix_append_drop (tailOf_isPrefix count low high rest)).symm
  refine broken_of_longest wide ?_ (.inr ?_) ?_
  · rintro ⟨_, _, leads', -⟩
    exact partly (congrArg Prod.fst (Option.some.inj (leads'.symm.trans leads)))
  · exact (begins_cons_iff wide).2 ⟨count, low, high, leads, short, follows_tailOf _ _ _ _⟩
  · intro longer front begins
    obtain ⟨count', low', high', leads', short', follows⟩ := (begins_cons_iff wide).1 begins
    cases leads.symm.trans leads'
    rw [whole] at front
    exact prefix_tailOf front follows short'

/-- A byte above 7F that leads nothing is broken by itself. -/
theorem broken_of_leads_nothing {lead : UInt8} (wide : 0x80 ≤ lead.toNat)
    (alone : followers? lead = none) (rest : List UInt8) : Broken [lead] rest := by
  refine broken_of_longest wide ?_ (.inl rfl) ?_
  · rintro ⟨low, high, leads, -⟩
    cases alone.symm.trans leads
  · rintro longer - begins
    obtain ⟨count, low, high, leads, -⟩ := (begins_cons_iff wide).1 begins
    cases alone.symm.trans leads

/-- The first bytes are read as the character that they are, or they are broken and read as one
replacement. -/
theorem decodeHead_spec (lead : UInt8) (rest : List UInt8) :
    let head := decodeHead lead rest
    String.utf8EncodeChar head.1 = lead :: rest.take head.2 ∨
      head.1 = replacement ∧ Broken (lead :: rest.take head.2) (rest.drop head.2) := by
  by_cases ascii : lead < 0x80
  · have small : lead.toNat < 0x80 := UInt8.lt_iff_toNat_lt.1 ascii
    have value : (Char.ofNat lead.toNat).toNat = lead.toNat := val_ofNat (.inl (by omega))
    simp only [decodeHead, if_pos ascii, List.take_zero]
    left
    rw [encodeChar_of_lt (by omega), value, UInt8.ofNat_toNat]
  have wide : 0x80 ≤ lead.toNat := Nat.le_of_not_lt fun small => ascii (UInt8.lt_iff_toNat_lt.2 small)
  simp only [decodeHead, if_neg ascii]
  cases leads : followers? lead with
  | none =>
    exact .inr ⟨rfl, broken_of_leads_nothing wide leads rest⟩
  | some limits =>
    obtain ⟨count, low, high⟩ := limits
    have taken : rest.take (tailOf count low high rest).length = tailOf count low high rest :=
      (List.prefix_iff_eq_take.1 (tailOf_isPrefix count low high rest)).symm
    simp only [taken]
    split
    · next full =>
      have whole : Whole lead (tailOf count low high rest) :=
        ⟨low, high, full.symm ▸ leads, follows_tailOf count low high rest⟩
      exact .inl whole.encodeChar_assemble
    · next partly =>
      exact .inr ⟨rfl, broken_tailOf wide leads partly⟩

/-- Decoding reads bytes as they are read. -/
theorem reads_decodeLossy (bytes : List UInt8) : Reads bytes (decodeLossy bytes) := by
  fun_induction decodeLossy bytes with
  | case1 => exact .nil
  | case2 lead rest head ih =>
    have whole : lead :: rest = (lead :: rest.take head.2) ++ rest.drop head.2 := by
      rw [List.cons_append, List.take_append_drop]
    rw [whole]
    rcases decodeHead_spec lead rest with spelt | ⟨replaced, broken⟩
    · have reads := Reads.character head.1 ih
      rwa [spelt] at reads
    · have reads := Reads.broken broken ih
      rwa [← replaced] at reads

theorem Broken.length_le {front rest front' rest' : List UInt8} (broken : Broken front rest)
    (broken' : Broken front' rest') (same : front ++ rest = front' ++ rest') :
    front.length ≤ front'.length := by
  rcases broken.begins with one | begins
  · rw [one]
    exact List.length_pos_of_ne_nil broken'.nonempty
  · exact broken'.longest front (same ▸ List.prefix_append front rest) begins

/-- A broken front is read as one replacement, and reading starts afresh behind it. -/
theorem Broken.decodeLossy_append {front rest : List UInt8} (broken : Broken front rest) :
    decodeLossy (front ++ rest) = replacement :: decodeLossy rest := by
  cases front with
  | nil => exact absurd rfl broken.nonempty
  | cons lead tail =>
    rw [List.cons_append, decodeLossy]
    have whole := List.take_append_drop (decodeHead lead (tail ++ rest)).2 (tail ++ rest)
    rcases decodeHead_spec lead (tail ++ rest) with spelt | ⟨replaced, taken⟩
    · refine absurd ?_ (broken.noCharacter (decodeHead lead (tail ++ rest)).1)
      rw [spelt, List.cons_append]
      exact (List.prefix_cons_inj lead).2 ⟨_, whole⟩
    · have same : (lead :: tail) ++ rest =
          (lead :: (tail ++ rest).take (decodeHead lead (tail ++ rest)).2) ++
            (tail ++ rest).drop (decodeHead lead (tail ++ rest)).2 := by
        rw [List.cons_append, List.cons_append, whole]
      have behind := (List.append_inj same
        (Nat.le_antisymm (broken.length_le taken same) (taken.length_le broken same.symm))).2
      rw [replaced, ← behind]

/-- Bytes are read as one text, which is their decoding. -/
theorem reads_iff {bytes : List UInt8} {text : List Char} :
    Reads bytes text ↔ decodeLossy bytes = text := by
  constructor
  · intro reads
    induction reads with
    | nil => rw [decodeLossy]
    | character c _ ih => rw [decodeLossy_encodeChar_append, ih]
    | broken broken _ ih => rw [broken.decodeLossy_append, ih]
  · rintro rfl
    exact reads_decodeLossy bytes

end RenderFarm.Text
