import RenderFarm.Proofs.Color.Spelling
import RenderFarm.Proofs.Language.Joining

/-!
# The scene statement

`Declares` is the grammar of the words behind `scene`: two counts, and then nothing or a pattern with
its own words. A scene statement makes the picture that its words declare; one whose words declare none
fails, and with it the text, which keeps what the lines above it bound (`picture_iff_declared`).
-/

namespace RenderFarm.Language

/-! ## The grammar -/

/-- A word stands for a number from 1 on that fits a word of 32 bits. -/
def Counts (bindings : Bindings) (word : List Char) (count : UInt32) : Prop :=
  0 < count ∧ Denotes bindings word count.toNat

/-- Words that name a pattern; no words at all name the gradient. -/
inductive Names (bindings : Bindings) : List (List Char) → Pattern → Prop
  | unnamed : Names bindings [] .gradient
  | gradient : Names bindings ["gradient".toList] .gradient
  | checker {size first second : List Char} {cell : UInt32} {even odd : Color}
    (counts : Counts bindings size cell) (evenSquares : Color.Spells first even)
    (oddSquares : Color.Spells second odd) :
    Names bindings ["checker".toList, size, first, second] (.checker cell even odd)
  | solid {word : List Char} {flat : Color} (spelt : Color.Spells word flat) :
    Names bindings ["solid".toList, word] (.solid flat)

/-- Words that declare a picture: its width, its height and its pattern. -/
inductive Declares (bindings : Bindings) : List (List Char) → Picture → Prop
  | sized {wide high : List Char} {words : List (List Char)} {picture : Picture}
    (width : Counts bindings wide picture.size.width)
    (height : Counts bindings high picture.size.height)
    (named : Names bindings words picture.pattern) :
    Declares bindings (wide :: high :: words) picture

/-! ## Reading the words -/

section Words

variable {bindings : Bindings}

theorem positive_eq_ok_iff {quantity : Quantity} {word : List Char} (single : Text.IsWord word)
    {count : UInt32} :
    positive bindings quantity (some word) = .ok count ↔ Counts bindings word count := by
  unfold Counts
  rw [positive, bind_eq_ok, ← readValue_eq_int_iff single]
  constructor
  · rintro ⟨value, read, fits⟩
    cases value with
    | text inner => cases fits
    | int number =>
        dsimp only at fits
        split at fits
        · next above =>
          split at fits
          · next below =>
            have same : ((UInt32.ofNat number.toNat).toNat : Int) = number := by
              rw [UInt32.toNat_ofNat', Nat.mod_eq_of_lt (by omega), Int.toNat_of_nonneg (by omega)]
            cases fits
            rw [same, UInt32.lt_iff_toNat_lt, UInt32.toNat_zero]
            exact ⟨by omega, read⟩
          · cases fits
        · cases fits
  · rintro ⟨above, read⟩
    have most := count.toNat_lt
    rw [UInt32.lt_iff_toNat_lt, UInt32.toNat_zero] at above
    refine ⟨.int count.toNat, read, ?_⟩
    dsimp only
    rw [if_pos (by omega), if_pos (by omega), Int.toNat_natCast, UInt32.ofNat_toNat]

theorem color_eq_ok_iff {word : List Char} {found : Color} :
    color (some word) = .ok found ↔ Color.Spells word found := by
  rw [color, ← Color.ofHex?_eq_some_iff]
  cases Color.ofHex? word <;> simp

theorem pattern_checker (words : List (List Char)) :
    pattern bindings ("checker".toList :: words) = (do
      let cell ← positive bindings .cell words.head?
      let even ← color words.tail.head?
      let odd ← color words.tail.tail.head?
      return (.checker cell even odd, words.tail.tail.tail)) :=
  rfl

theorem pattern_solid (words : List (List Char)) :
    pattern bindings ("solid".toList :: words) = (do
      let flat ← color words.head?
      return (.solid flat, words.tail)) :=
  rfl

/-- Words that are read as a pattern, to the last, name it. -/
theorem names_of_pattern {words : List (List Char)} (single : ∀ word ∈ words, Text.IsWord word)
    {found : Pattern} (read : pattern bindings words = .ok (found, [])) :
    Names bindings words found := by
  cases words with
  | nil =>
      cases read
      exact .unnamed
  | cons name words =>
      by_cases gradient : name = "gradient".toList
      · subst gradient
        cases read
        exact .gradient
      by_cases checker : name = "checker".toList
      · subst checker
        rw [pattern_checker] at read
        obtain ⟨cell, sized, read⟩ := bind_eq_ok.1 read
        obtain ⟨even, first, read⟩ := bind_eq_ok.1 read
        obtain ⟨odd, second, read⟩ := bind_eq_ok.1 read
        match words, sized, first, second, read with
        | [size, first, second], sized, evenSquares, oddSquares, rfl =>
          exact .checker ((positive_eq_ok_iff (single size (by simp))).1 sized)
            (color_eq_ok_iff.1 evenSquares) (color_eq_ok_iff.1 oddSquares)
      by_cases solid : name = "solid".toList
      · subst solid
        rw [pattern_solid] at read
        obtain ⟨flat, spelt, read⟩ := bind_eq_ok.1 read
        match words, spelt, read with
        | [word], spelt, rfl => exact .solid (color_eq_ok_iff.1 spelt)
      · rw [pattern, if_neg gradient, if_neg checker, if_neg solid] at read
        cases read

theorem pattern_of_names {words : List (List Char)} (single : ∀ word ∈ words, Text.IsWord word)
    {found : Pattern} (named : Names bindings words found) :
    pattern bindings words = .ok (found, []) := by
  cases named with
  | unnamed => rfl
  | gradient => rfl
  | @checker size _ _ _ _ _ counts evenSquares oddSquares =>
      rw [pattern_checker]
      exact bind_eq_ok.2 ⟨_, (positive_eq_ok_iff (single size (by simp))).2 counts,
        bind_eq_ok.2 ⟨_, color_eq_ok_iff.2 evenSquares,
          bind_eq_ok.2 ⟨_, color_eq_ok_iff.2 oddSquares, rfl⟩⟩⟩
  | solid spelt =>
      rw [pattern_solid]
      exact bind_eq_ok.2 ⟨_, color_eq_ok_iff.2 spelt, rfl⟩

/-- The words behind `scene` make a picture just when they declare it. -/
theorem picture_eq_ok_iff {words : List (List Char)} (single : ∀ word ∈ words, Text.IsWord word)
    {built : Picture} : picture bindings words = .ok built ↔ Declares bindings words built := by
  constructor
  · intro read
    obtain ⟨width, wide, read⟩ := bind_eq_ok.1 read
    obtain ⟨height, high, read⟩ := bind_eq_ok.1 read
    obtain ⟨⟨found, extra⟩, named, read⟩ := bind_eq_ok.1 read
    match words, extra, wide, high, named, read with
    | wide :: high :: words, [], width, height, named, rfl =>
      obtain ⟨first, single⟩ := List.forall_mem_cons.1 single
      obtain ⟨second, single⟩ := List.forall_mem_cons.1 single
      exact .sized ((positive_eq_ok_iff first).1 width) ((positive_eq_ok_iff second).1 height)
        (names_of_pattern single named)
  · rintro ⟨width, height, named⟩
    obtain ⟨first, single⟩ := List.forall_mem_cons.1 single
    obtain ⟨second, single⟩ := List.forall_mem_cons.1 single
    exact bind_eq_ok.2 ⟨_, (positive_eq_ok_iff first).2 width,
      bind_eq_ok.2 ⟨_, (positive_eq_ok_iff second).2 height,
        bind_eq_ok.2 ⟨_, pattern_of_names single named, rfl⟩⟩⟩

end Words

/-! ## Lines that begin with `scene` -/

/-- A line whose first word is `scene` is a scene statement of the words behind it. -/
theorem performLine_scene {raw : List Char} {words : List (List Char)}
    (first : Text.words raw = "scene".toList :: words) (progress : Progress) :
    progress.performLine raw = progress.perform (.scene words) := by
  have cut := (Text.words_trim raw).trans first
  unfold Progress.performLine
  rcases Text.words_eq_cons cut (Text.isBlank_head_trim raw) with
    ⟨line, rfl⟩ | ⟨blank, after, parts, line, rfl⟩
  · rw [line]
    rfl
  · have word : ∀ c ∈ "scene".toList, Text.isBlank c = false := (isWord_of_isName rfl).whole
    have statement : Statement.ofLine ("scene".toList ++ blank :: after) = .scene (Text.words after) := by
      unfold Statement.ofLine
      rw [Text.splitFirst_append_cons word parts]
      exact congrArg Statement.scene (Text.words_trim after)
    rw [line, ← statement]
    rfl

namespace Progress

/-- The number of a line that fails is one of those that the lines bear. -/
theorem line_of_performLines {line : Nat} {progress : Progress} {raws : List (List Char)}
    {fault : LineFault} (stopped : (progress.performLines line raws).2 = some fault) :
    line ≤ fault.line ∧ fault.line < line + raws.length := by
  induction raws generalizing line progress with
  | nil => cases stopped
  | cons raw rest ih =>
      simp only [performLines] at stopped
      cases performed : progress.performLine raw with
      | ok next =>
          rw [performed] at stopped
          have later := ih stopped
          rw [List.length_cons]
          omega
      | error found =>
          rw [performed] at stopped
          cases stopped
          exact ⟨Nat.le_refl line, by simp⟩

/-- Lines of which one fails go no further than those above it. -/
theorem performLines_of_fails {line : Nat} {progress : Progress} {above : List (List Char)}
    {raw : List Char} (below : List (List Char))
    (fails : (progress.performLines line above).2 = none →
      ∀ next, (progress.performLines line above).1.performLine raw ≠ .ok next) :
    ∃ fault, progress.performLines line (above ++ raw :: below) =
        ((progress.performLines line above).1, some fault) ∧
      fault.line ≤ line + above.length ∧
      ((progress.performLines line above).2 = none → fault.line = line + above.length) := by
  rw [performLines_append]
  rcases before : progress.performLines line above with ⟨next, - | fault⟩
  · rw [before] at fails
    dsimp only at fails ⊢
    cases performed : next.performLine raw with
    | ok later => exact absurd performed (fails rfl later)
    | error found =>
        simp only [performLines, performed]
        exact ⟨_, rfl, Nat.le_refl _, fun _ => rfl⟩
  · have bound := line_of_performLines (congrArg Prod.snd before)
    exact ⟨fault, rfl, Nat.le_of_lt bound.2, fun none => by cases none⟩

end Progress

/-- The words of any text are read as a picture just when they declare it. A source text with a line
that begins with `scene`, and whose other words declare no picture by what the lines above have bound,
fails in that line or above it, and leaves bound what the lines above have bound. -/
theorem picture_iff_declared (bindings : Bindings) :
    (∀ (arguments : String) (built : Picture),
      picture bindings (Text.words arguments.toList) = .ok built ↔
        Declares bindings (Text.words arguments.toList) built) ∧
    ∀ (source : String) (above below : List (List Char)) (raw : List Char)
      (words : List (List Char)),
      Text.lines source.toList = above ++ raw :: below →
      Text.words raw = "scene".toList :: words →
      let before := (Progress.start bindings).performLines 1 above
      (before.2 = none → ∀ built, ¬Declares before.1.bindings words built) →
      ∃ line message,
        (evaluate bindings source).verdict =
          .failure before.1.bindings (located line message) ∧
        line ≤ above.length + 1 ∧ (before.2 = none → line = above.length + 1) := by
  constructor
  · intro arguments built
    exact picture_eq_ok_iff fun _ member => Text.isWord_of_mem_words member
  · intro source above below raw words lines first before undeclared
    have single : ∀ word ∈ words, Text.IsWord word := fun word member =>
      Text.isWord_of_mem_words (first ▸ List.mem_cons_of_mem _ member)
    have fails : before.2 = none → ∀ next, before.1.performLine raw ≠ .ok next := by
      intro reached next performed
      rw [performLine_scene first] at performed
      obtain ⟨built, read, -⟩ := bind_eq_ok.1 performed
      exact undeclared reached built ((picture_eq_ok_iff single).1 read)
    obtain ⟨fault, stopped, bound, last⟩ := Progress.performLines_of_fails below fails
    rw [← lines] at stopped
    refine ⟨fault.line, fault.fault.message, ?_, by omega, fun reached => by have := last reached; omega⟩
    rw [evaluate_of_stopped stopped]
    rfl

/-- A scene of no height fails, and the line below it binds nothing more. -/
theorem flat_scene_fails :
    Text.lines "w = 4\nscene w 0\nw = 5".toList =
        ["w = 4".toList] ++ "scene w 0".toList :: ["w = 5".toList] ∧
      Text.words "scene w 0".toList = "scene".toList :: ["w".toList, "0".toList] ∧
      (∀ built, ¬Declares ⟨[("w", .int 4)]⟩ ["w".toList, "0".toList] built) ∧
      ∃ message, (evaluate .empty "w = 4\nscene w 0\nw = 5").verdict =
        .failure ⟨[("w", .int 4)]⟩ (located 2 message) := by
  have lines : Text.lines "w = 4\nscene w 0\nw = 5".toList =
      ["w = 4".toList] ++ "scene w 0".toList :: ["w = 5".toList] := by
    decide +kernel
  have first : Text.words "scene w 0".toList = "scene".toList :: ["w".toList, "0".toList] := by
    decide +kernel
  have before : (Progress.start .empty).performLines 1 ["w = 4".toList] =
      (⟨⟨[("w", .int 4)]⟩, "4", none, []⟩, none) := by
    decide +kernel
  have refused : picture ⟨[("w", .int 4)]⟩ ["w".toList, "0".toList] =
      .error (.notPositive .height (.int 0)) := by
    rfl
  have undeclared : ∀ built, ¬Declares ⟨[("w", .int 4)]⟩ ["w".toList, "0".toList] built := by
    intro built declares
    have single : ∀ word ∈ ["w".toList, "0".toList], Text.IsWord word := fun word member =>
      Text.isWord_of_mem_words (first ▸ List.mem_cons_of_mem _ member)
    have read := (picture_eq_ok_iff single).2 declares
    rw [refused] at read
    cases read
  obtain ⟨-, fails⟩ := picture_iff_declared .empty
  have failed := fails _ _ _ _ _ lines first
  simp only [before] at failed
  obtain ⟨line, message, stopped, -, last⟩ := failed fun _ => undeclared
  rw [last trivial] at stopped
  exact ⟨lines, first, undeclared, message, stopped⟩

end RenderFarm.Language
