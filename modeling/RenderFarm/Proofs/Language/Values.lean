import RenderFarm.Language.Statement
import RenderFarm.Proofs.Text.Cutting
import RenderFarm.Proofs.Text.Literals

/-!
# Words that stand for values

A word stands for a number as a literal for it or as a name that is bound to it, and never as both,
since no literal and no quote begins like a name (`readValue_eq_int_iff`). A value is read back from the
text that is written for it (`readValue_render`), whatever is bound.
-/

namespace RenderFarm.Language

/-! ## Names -/

/-- The characters of names have codes below 128. -/
theorem toNat_lt_of_isNameChar {c : Char} (named : isNameChar c = true) : c.toNat < 128 := by
  have below {most : UInt32} (upper : c.val ≤ most) (low : most < 128) : c.toNat < 128 :=
    Nat.lt_of_le_of_lt (UInt32.le_iff_toNat_le.1 upper) (UInt32.lt_iff_toNat_lt.1 low)
  rcases Bool.or_eq_true_iff.1 named with alphanumeric | line
  · rcases Bool.or_eq_true_iff.1 alphanumeric with letter | digit
    · rcases Bool.or_eq_true_iff.1 letter with upper | lower
      · exact below (of_decide_eq_true upper).2 (by decide)
      · exact below (of_decide_eq_true (Bool.and_eq_true_iff.1 lower).2) (by decide)
    · exact below (of_decide_eq_true (Bool.and_eq_true_iff.1 digit).2) (by decide)
  · rw [beq_iff_eq.1 line]
    decide

/-- Names hold no blank, and no equals sign. -/
theorem isBlank_of_isNameChar {c : Char} (named : isNameChar c = true) :
    Text.isBlank c = false ∧ (c == '=') = false := by
  have low : ∀ code < 128, isNameChar (Char.ofNat code) = true →
      Text.isBlank (Char.ofNat code) = false ∧ (Char.ofNat code == '=') = false := by
    decide
  have plain := low c.toNat (toNat_lt_of_isNameChar named)
  rw [Char.ofNat_toNat] at plain
  exact plain named

theorem isNameChar_of_isNameStart {c : Char} (start : isNameStart c = true) :
    isNameChar c = true := by
  unfold isNameStart at start
  unfold isNameChar Char.isAlphanum
  rcases Bool.or_eq_true_iff.1 start with letter | line
  · rw [letter, Bool.true_or, Bool.true_or]
  · rw [line, Bool.or_true]

/-- A name does not begin like a literal, a quoted text or a comment. -/
theorem isNameStart_ne {c : Char} (start : isNameStart c = true) :
    c.isDigit = false ∧ c ≠ '-' ∧ c ≠ '+' ∧ c ≠ '\'' ∧ c ≠ '"' ∧ c ≠ '#' := by
  have low : ∀ code < 128, isNameStart (Char.ofNat code) = true →
      (Char.ofNat code).isDigit = false ∧ Char.ofNat code ≠ '-' ∧ Char.ofNat code ≠ '+' ∧
        Char.ofNat code ≠ '\'' ∧ Char.ofNat code ≠ '"' ∧ Char.ofNat code ≠ '#' := by
    decide
  have apart := low c.toNat (toNat_lt_of_isNameChar (isNameChar_of_isNameStart start))
  rw [Char.ofNat_toNat] at apart
  exact apart start

theorem exists_of_isName {name : List Char} (named : isName name = true) :
    ∃ first rest, name = first :: rest ∧ isNameStart first = true ∧
      ∀ c ∈ name, isNameChar c = true := by
  cases name with
  | nil => cases named
  | cons first rest =>
      obtain ⟨start, others⟩ := (Bool.and_eq_true _ _).mp named
      refine ⟨first, rest, rfl, start, List.forall_mem_cons.2 ⟨isNameChar_of_isNameStart start, ?_⟩⟩
      exact List.all_eq_true.1 others

theorem isWord_of_isName {name : List Char} (named : isName name = true) : Text.IsWord name := by
  obtain ⟨first, rest, rfl, -, all⟩ := exists_of_isName named
  exact ⟨List.cons_ne_nil first rest, fun c inside => (isBlank_of_isNameChar (all c inside)).1⟩

/-! ## Literals and quoted texts -/

/-- A text that begins neither with a sign nor with a digit is no literal. -/
theorem int64?_eq_none {c : Char} (rest : List Char) (digit : c.isDigit = false) (minus : c ≠ '-')
    (plus : c ≠ '+') : Text.int64? (c :: rest) = none := by
  refine Option.eq_none_iff_forall_ne_some.2 fun value read => ?_
  rcases (Text.int64?_eq_some_iff.1 read).1.head with sign | sign | other
  · exact minus sign
  · exact plus sign
  · rw [digit] at other
    cases other

/-- A text that does not begin with a quote is not quoted. -/
theorem unquote?_eq_none {quote c : Char} (rest : List Char) (other : c ≠ quote) :
    unquote? quote (c :: rest) = none := by
  unfold unquote?
  split
  · rfl
  · next first others same =>
    obtain ⟨rfl, rfl⟩ := List.cons.inj same
    split
    · rfl
    · exact if_neg fun both => other both.1

theorem unquote?_quoted (quote : Char) (inner : List Char) :
    unquote? quote (quote :: (inner ++ [quote])) = some inner := by
  simp [unquote?]

/-! ## Numbers -/

/-- A word stands for a number: it is a literal for it, or a name that is bound to it. -/
inductive Denotes (bindings : Bindings) (word : List Char) (number : Int) : Prop
  | literal (spelt : Text.Spells word number) (least : -0x8000000000000000 ≤ number)
    (most : number < 0x8000000000000000)
  | name (named : isName word = true)
    (bound : bindings.get? (String.ofList word) = some (.int number))

theorem readValue_of_isName (bindings : Bindings) {name : List Char} (named : isName name = true) :
    readValue bindings name = lookupName bindings name := by
  obtain ⟨first, rest, rfl, start, -⟩ := exists_of_isName named
  obtain ⟨digit, minus, plus, single, double, -⟩ := isNameStart_ne start
  unfold readValue
  rw [(isWord_of_isName named).trim_eq]
  simp only [int64?_eq_none rest digit minus plus, unquote?_eq_none rest single,
    unquote?_eq_none rest double, Option.or_none, named, if_true]

theorem lookupName_eq_ok_iff {bindings : Bindings} {name : List Char} {value : Value} :
    lookupName bindings name = .ok value ↔ bindings.get? (String.ofList name) = some value := by
  unfold lookupName
  cases bindings.get? (String.ofList name) <;> simp

/-- A word is read as a number just when it stands for it. -/
theorem readValue_eq_int_iff {bindings : Bindings} {word : List Char} (single : Text.IsWord word)
    {number : Int} : readValue bindings word = .ok (.int number) ↔ Denotes bindings word number := by
  constructor
  · intro read
    unfold readValue at read
    rw [single.trim_eq] at read
    dsimp only at read
    split at read
    · next literal =>
      cases read
      obtain ⟨spelt, least, most⟩ := Text.int64?_eq_some_iff.1 literal
      exact .literal spelt least most
    · split at read
      · cases read
      · split at read
        · next named => exact .name named (lookupName_eq_ok_iff.1 read)
        · cases read
  · intro denotes
    cases denotes with
    | literal spelt least most =>
        simp only [readValue, single.trim_eq, Text.int64?_eq_some_iff.2 ⟨spelt, least, most⟩]
    | name named bound =>
        rw [readValue_of_isName bindings named]
        exact lookupName_eq_ok_iff.2 bound

/-! ## Values and what is written for them -/

/-- A value that a line can give: a number of 64 bits, or a text without a line feed. -/
def Value.Given : Value → Prop
  | .int number => -0x8000000000000000 ≤ number ∧ number < 0x8000000000000000
  | .text inner => '\n' ∉ inner.toList

theorem Value.toList_render_text (inner : String) :
    (Value.text inner).render.toList = '\'' :: (inner.toList ++ ['\'']) := by
  simp [Value.render]

theorem isWord_intDigits (number : Int) : Text.IsWord (Text.intDigits number) := by
  have digits : Text.IsWord (Nat.toDigits 10 number.natAbs) := by
    obtain ⟨filled, all⟩ := Text.isDecimal_toDigits number.natAbs
    refine ⟨filled, fun c inside => (isBlank_of_isNameChar ?_).1⟩
    simp only [isNameChar, Char.isAlphanum, all c inside, Bool.or_true, Bool.true_or]
  unfold Text.intDigits
  dsimp only
  split
  · exact ⟨List.cons_ne_nil _ _, List.forall_mem_cons.2 ⟨by decide, digits.2⟩⟩
  · exact digits

theorem Value.render_ne_empty (value : Value) : value.render ≠ "" := by
  cases value with
  | int number => simpa [render] using (isWord_intDigits number).filled
  | text inner => simp [render]

/-- What is written for a value neither begins nor ends with a blank. -/
theorem Value.isBlank_ends_render (value : Value) :
    (∀ c ∈ value.render.toList.head?, Text.isBlank c = false) ∧
      ∀ c ∈ value.render.toList.getLast?, Text.isBlank c = false := by
  cases value with
  | int number =>
      have whole := (isWord_intDigits number).whole
      rw [Value.render, String.toList_ofList]
      exact ⟨fun c first => whole c (List.mem_of_mem_head? first),
        fun c last => whole c (List.mem_of_mem_getLast? last)⟩
  | text inner =>
      rw [Value.toList_render_text, ← List.cons_append, List.getLast?_concat]
      constructor <;> rintro c ⟨⟩ <;> decide

theorem Value.trim_render (value : Value) :
    Text.trim value.render.toList = value.render.toList :=
  Text.trim_eq_self value.isBlank_ends_render.1 value.isBlank_ends_render.2

/-- A value is read back from what is written for it. -/
theorem readValue_render {value : Value} (given : value.Given) (bindings : Bindings) {source : List Char}
    (written : Text.trim source = value.render.toList) : readValue bindings source = .ok value := by
  unfold readValue
  rw [written]
  cases value with
  | int number =>
      obtain ⟨least, most⟩ := given
      simp only [Value.render, String.toList_ofList, Text.int64?_intDigits least most]
  | text inner =>
      rw [Value.toList_render_text]
      simp only [int64?_eq_none (c := '\'') _ (by decide) (by decide) (by decide), unquote?_quoted,
        Option.some_or, String.ofList_toList]

end RenderFarm.Language
