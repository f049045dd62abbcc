import Mathlib.Data.List.DropRight
import RenderFarm.Text.Blank

/-!
# Text that is cut

What is left of a text when it is trimmed and what its pieces are when it is cut at blanks, at line
feeds or at the first character of a class. Words and lines hold no character at which they were cut
(`mem_words`, `notMem_of_mem_lines`); blanks around a text are in none of its words (`words_trim`).
-/

namespace RenderFarm.Text

/-- No piece of a text holds a character at which it was cut. -/
theorem eq_false_of_mem_splitOnP {cut : Char → Bool} {text piece : List Char}
    (member : piece ∈ text.splitOnP cut) : ∀ c ∈ piece, cut c = false := by
  induction text generalizing piece with
  | nil =>
      rw [List.splitOnP_nil, List.mem_singleton] at member
      subst member
      simp
  | cons first rest ih =>
      rw [List.splitOnP_cons_eq_if_modifyHead] at member
      split at member
      · rcases List.mem_cons.1 member with rfl | later
        · simp
        · exact ih later
      · next uncut =>
        obtain ⟨head, tail, pieces⟩ := List.exists_cons_of_ne_nil (List.splitOnP_ne_nil cut rest)
        rw [pieces, List.modifyHead_cons] at member
        rcases List.mem_cons.1 member with rfl | later
        · intro c inside
          rcases List.mem_cons.1 inside with rfl | inside
          · exact Bool.eq_false_iff.2 uncut
          · exact ih (pieces ▸ List.mem_cons_self) c inside
        · exact ih (pieces ▸ List.mem_cons_of_mem head later)

theorem notMem_of_mem_lines {text line : List Char} (member : line ∈ lines text) :
    '\n' ∉ line := by
  rw [lines, List.splitOn_eq_splitOnP] at member
  intro feed
  simpa using eq_false_of_mem_splitOnP member _ feed

/-- A text without a line feed is one line. -/
theorem lines_eq_singleton {text : List Char} (whole : '\n' ∉ text) : lines text = [text] := by
  rw [lines, List.splitOn_eq_splitOnP]
  exact List.splitOnP_eq_singleton fun c inside =>
    beq_eq_false_iff_ne.2 fun feed => whole (feed ▸ inside)

/-! ## The first character of a class -/

section SplitFirst

variable {cut : Char → Bool} {text before : List Char} {c : Char}

theorem splitFirst_append_cons (uncut : ∀ c ∈ before, cut c = false) (cuts : cut c = true)
    (after : List Char) : splitFirst cut (before ++ c :: after) = some (before, after) := by
  have passed : ∀ c ∈ before, (!cut c) = true := fun c inside => by rw [uncut c inside]; rfl
  rw [splitFirst, List.dropWhile_append_of_pos passed, List.takeWhile_append_of_pos passed]
  simp [cuts]

theorem splitFirst_eq_none (uncut : ∀ c ∈ text, cut c = false) : splitFirst cut text = none := by
  have passed : ∀ c ∈ text, (!cut c) = true := fun c inside => by rw [uncut c inside]; rfl
  simp only [splitFirst, List.dropWhile_eq_nil_iff.2 passed]

/-- A text either holds no character of a class or is cut at the first one. -/
theorem uncut_or_exists_cut (cut : Char → Bool) (text : List Char) :
    (∀ c ∈ text, cut c = false) ∨
      ∃ before c after, (∀ c ∈ before, cut c = false) ∧ cut c = true ∧
        text = before ++ c :: after := by
  induction text with
  | nil => exact .inl (by simp)
  | cons first rest ih =>
      by_cases here : cut first = true
      · exact .inr ⟨[], first, rest, by simp, here, rfl⟩
      · rcases ih with uncut | ⟨before, c, after, uncut, cuts, rfl⟩
        · exact .inl (List.forall_mem_cons.2 ⟨Bool.eq_false_iff.2 here, uncut⟩)
        · exact .inr ⟨first :: before, c, after,
            List.forall_mem_cons.2 ⟨Bool.eq_false_iff.2 here, uncut⟩, cuts, rfl⟩

end SplitFirst

/-! ## Words -/

/-- A text that is cut nowhere. -/
structure IsWord (word : List Char) : Prop where
  filled : word ≠ []
  whole : ∀ c ∈ word, isBlank c = false

theorem isWord_of_mem_words {text word : List Char} (member : word ∈ words text) : IsWord word := by
  obtain ⟨piece, filled⟩ := List.mem_filter.1 member
  exact ⟨by simpa using filled, eq_false_of_mem_splitOnP piece⟩

theorem words_append_cons {blank : Char} (cuts : isBlank blank = true) (before after : List Char) :
    words (before ++ blank :: after) = words before ++ words after := by
  rw [words, List.splitOnP_append_cons before after cuts, List.filter_append]
  rfl

theorem words_cons {blank : Char} (cuts : isBlank blank = true) (text : List Char) :
    words (blank :: text) = words text :=
  words_append_cons cuts [] text

/-- A text without a blank is one word. -/
theorem IsWord.words_eq {word : List Char} (single : IsWord word) : words word = [word] := by
  rw [words, List.splitOnP_eq_singleton single.whole]
  simp [single.filled]

theorem words_blanks_append {blanks : List Char} (blank : ∀ c ∈ blanks, isBlank c = true)
    (text : List Char) : words (blanks ++ text) = words text := by
  induction blanks with
  | nil => rfl
  | cons c rest ih =>
      obtain ⟨first, others⟩ := List.forall_mem_cons.1 blank
      rw [List.cons_append, words_cons first, ih others]

theorem words_append_blanks (text : List Char) {blanks : List Char}
    (blank : ∀ c ∈ blanks, isBlank c = true) : words (text ++ blanks) = words text := by
  cases blanks with
  | nil => rw [List.append_nil]
  | cons c rest =>
      obtain ⟨first, others⟩ := List.forall_mem_cons.1 blank
      have none : words rest = [] := by simpa [words] using words_blanks_append others []
      rw [words_append_cons first, none, List.append_nil]

/-- A text that does not begin with a blank begins with its first word. -/
theorem words_eq_cons {text word : List Char} {others : List (List Char)}
    (first : words text = word :: others) (trimmed : ∀ c ∈ text.head?, isBlank c = false) :
    text = word ∧ others = [] ∨
      ∃ blank after, isBlank blank = true ∧ text = word ++ blank :: after ∧ words after = others := by
  rcases uncut_or_exists_cut isBlank text with whole | ⟨before, blank, after, whole, cut, rfl⟩
  · have filled : text ≠ [] := by
      rintro rfl
      cases first
    rw [IsWord.words_eq ⟨filled, whole⟩] at first
    obtain ⟨rfl, rfl⟩ := List.cons.inj first
    exact .inl ⟨rfl, rfl⟩
  · have filled : before ≠ [] := by
      rintro rfl
      rw [trimmed blank rfl] at cut
      cases cut
    rw [words_append_cons cut, IsWord.words_eq ⟨filled, whole⟩] at first
    obtain ⟨rfl, rfl⟩ := List.cons.inj first
    exact .inr ⟨blank, after, cut, rfl, rfl⟩

/-! ## Trimming -/

/-- What trimming takes away is blank. -/
theorem exists_blanks_trim (text : List Char) :
    ∃ before after, (∀ c ∈ before, isBlank c = true) ∧ (∀ c ∈ after, isBlank c = true) ∧
      text = before ++ (trim text ++ after) := by
  refine ⟨text.takeWhile isBlank, (text.dropWhile isBlank).rtakeWhile isBlank,
    fun _ inside => List.mem_takeWhile_imp inside, fun _ inside => List.mem_rtakeWhile_imp inside, ?_⟩
  have left : text.dropWhile isBlank =
      trim text ++ (text.dropWhile isBlank).rtakeWhile isBlank :=
    List.rdropWhile_append_rtakeWhile.symm
  rw [← left, List.takeWhile_append_dropWhile]

theorem mem_of_mem_trim {text : List Char} {c : Char} (inside : c ∈ trim text) : c ∈ text := by
  obtain ⟨before, after, -, -, whole⟩ := exists_blanks_trim text
  rw [whole]
  exact List.mem_append_right before (List.mem_append_left after inside)

/-- A trimmed text does not begin with a blank. -/
theorem isBlank_head_trim (text : List Char) : ∀ c ∈ (trim text).head?, isBlank c = false := by
  intro c head
  obtain ⟨rest, trimmed⟩ := List.head?_eq_some_iff.1 head
  obtain ⟨cut, left⟩ := List.rdropWhile_prefix isBlank (text.dropWhile isBlank)
  have whole : text.dropWhile isBlank = c :: (rest ++ cut) := by
    rw [← left]
    exact congrArg (· ++ cut) trimmed
  have first := List.head?_dropWhile_not isBlank text
  rw [whole] at first
  exact first

/-- A text that neither begins nor ends with a blank is left as it is. -/
theorem trim_eq_self {text : List Char} (first : ∀ c ∈ text.head?, isBlank c = false)
    (last : ∀ c ∈ text.getLast?, isBlank c = false) : trim text = text := by
  have left : text.dropWhile isBlank = text := by
    cases text with
    | nil => rfl
    | cons c rest => exact List.dropWhile_cons_of_neg (by simp [first c rfl])
  have right : text.rdropWhile isBlank = text :=
    List.rdropWhile_eq_self_iff.2 fun filled =>
      Bool.eq_false_iff.1 (last _ (List.getLast?_eq_some_getLast filled))
  exact (congrArg (List.rdropWhile isBlank) left).trans right

theorem IsWord.trim_eq {word : List Char} (single : IsWord word) : trim word = word :=
  trim_eq_self (fun c first => single.whole c (List.mem_of_mem_head? first))
    fun c last => single.whole c (List.mem_of_mem_getLast? last)

theorem IsWord.trim_concat {word : List Char} (single : IsWord word) {blank : Char}
    (cut : isBlank blank = true) : trim (word ++ [blank]) = word := by
  have right : (word ++ [blank]).rdropWhile isBlank = word := by
    rw [List.rdropWhile_concat_pos _ _ _ cut]
    exact List.rdropWhile_eq_self_iff.2 fun filled =>
      Bool.eq_false_iff.1 (single.whole _ (List.getLast_mem filled))
  have left : (word ++ [blank]).dropWhile isBlank = word ++ [blank] := by
    obtain ⟨first, rest, rfl⟩ := List.exists_cons_of_ne_nil single.filled
    exact List.dropWhile_cons_of_neg (by simp [single.whole first List.mem_cons_self])
  exact (congrArg (List.rdropWhile isBlank) left).trans right

theorem trim_cons {c : Char} (blank : isBlank c = true) (text : List Char) :
    trim (c :: text) = trim text := by
  rw [trim, List.dropWhile_cons_of_pos blank, trim]

/-- Blanks around a text are in none of its words. -/
theorem words_trim (text : List Char) : words (trim text) = words text := by
  obtain ⟨before, after, leading, trailing, whole⟩ := exists_blanks_trim text
  calc
    words (trim text) = words (before ++ (trim text ++ after)) := by
      rw [words_blanks_append leading, words_append_blanks _ trailing]
    _ = words text := by rw [← whole]

end RenderFarm.Text
