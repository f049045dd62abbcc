import RenderFarm.Proofs.Language.Reading
import RenderFarm.Proofs.Language.Values

/-!
# Two texts as one

A text whose lines are those of one text and then those of another is evaluated as the one and then
the other (`evaluate_join`). The second text does not see what the first came to but through the
bindings (`performLines_followedBy`), and the lines only bear other numbers (`performLines_add`).
-/

namespace RenderFarm.Language

/-! ## Numbered lines -/

/-- The words for a fault of a line. -/
def located (line : Nat) (message : String) : String :=
  s!"line {line}: " ++ message

theorem toList_located (line : Nat) (message : String) : (located line message).toList =
    "line ".toList ++ ((Nat.toDigits 10 line) ++ ':' :: ' ' :: message.toList) := by
  simp only [located, String.toList_append, Nat.toString_eq_ofList_toDigits, String.toList_ofList,
    List.append_assoc]
  rfl

/-- The number of the line can be told from the words. -/
theorem located_inj {line other : Nat} {message words : String}
    (same : located line message = located other words) : line = other ∧ message = words := by
  -- The digits end at the first colon.
  have cut : ∀ (number : Nat) (rest : List Char),
      (Nat.toDigits 10 number ++ ':' :: rest).takeWhile (· != ':') = Nat.toDigits 10 number := by
    intro number rest
    rw [List.takeWhile_append_of_pos, List.takeWhile_cons_of_neg (by decide), List.append_nil]
    intro c digit
    have decimal := Nat.isDigit_of_mem_toDigits (by decide) (by decide) digit
    rw [bne_iff_ne]
    rintro rfl
    cases decimal
  have chars := congrArg String.toList same
  rw [toList_located, toList_located, List.append_cancel_left_eq] at chars
  have digits := congrArg (List.takeWhile (· != ':')) chars
  rw [cut, cut] at digits
  rw [digits, List.append_cancel_left_eq] at chars
  refine ⟨?_, String.toList_inj.1 (List.cons.inj (List.cons.inj chars).2).2⟩
  rw [← Nat.ofDigitChars_ten_toDigits (n := line), digits, Nat.ofDigitChars_ten_toDigits]

/-- The fault when there are more lines above. -/
def LineFault.below (above : Nat) (located : LineFault) : LineFault :=
  { located with line := located.line + above }

/-- There is one line more than there are line feeds. -/
theorem length_lines (text : List Char) : (Text.lines text).length = text.count '\n' + 1 := by
  induction text with
  | nil => rfl
  | cons c rest ih =>
      rw [Text.lines, List.splitOn_eq_splitOnP] at ih ⊢
      by_cases feed : c = '\n'
      · subst feed
        simp [List.splitOnP_cons_eq_if_modifyHead, ih]
      · simp [List.splitOnP_cons_eq_if_modifyHead, feed, ih]

namespace Progress

/-! ## What came before -/

/-- What some lines come to after others, when `since` is what they come to by themselves. -/
def followedBy (before since : Progress) : Progress where
  bindings := since.bindings
  text := if since.text = "" then before.text else since.text
  scene := since.scene.or before.scene
  written := since.written ++ before.written

theorem followedBy_start (before : Progress) : before.followedBy (start before.bindings) = before :=
  rfl

/-- What came before has no part in a statement but by the bindings. -/
theorem perform_followedBy (before since : Progress) (statement : Statement) :
    (before.followedBy since).perform statement =
      (since.perform statement).map before.followedBy := by
  cases statement with
  | print rest => rfl
  | raise rest => rfl
  | scene words =>
      have named : ∀ size, sceneText size ≠ "" := by
        intro size empty
        simp only [sceneText, String.append_eq_empty_iff] at empty
        exact absurd empty.1.1.1.1 (by decide)
      simp only [perform, followedBy]
      cases picture since.bindings words with
      | error fault => rfl
      | ok built => exact congrArg Except.ok (by simp [followedBy, named])
  | assign target source =>
      simp only [perform, followedBy]
      split
      · cases readValue since.bindings source with
        | error fault => rfl
        | ok value => exact congrArg Except.ok (by simp [followedBy, value.render_ne_empty])
      · rfl
  | echo line =>
      simp only [perform, followedBy]
      split
      · cases lookupName since.bindings line with
        | error fault => rfl
        | ok value => exact congrArg Except.ok (by simp [followedBy, value.render_ne_empty])
      · rfl

theorem performLine_followedBy (before since : Progress) (raw : List Char) :
    (before.followedBy since).performLine raw = (since.performLine raw).map before.followedBy := by
  unfold performLine
  split
  · rfl
  · rfl
  · exact perform_followedBy before since _

theorem performLines_followedBy (before since : Progress) (line : Nat) (raws : List (List Char)) :
    (before.followedBy since).performLines line raws =
      (before.followedBy (since.performLines line raws).1, (since.performLines line raws).2) := by
  induction raws generalizing since line with
  | nil => rfl
  | cons raw rest ih =>
      simp only [performLines, performLine_followedBy]
      cases since.performLine raw with
      | error fault => rfl
      | ok next => exact ih next (line + 1)

/-! ## More lines -/

/-- Lines bear higher numbers when there are others above. -/
theorem performLines_add (above line : Nat) (progress : Progress) (raws : List (List Char)) :
    progress.performLines (line + above) raws =
      ((progress.performLines line raws).1,
        (progress.performLines line raws).2.map (LineFault.below above)) := by
  induction raws generalizing progress line with
  | nil => rfl
  | cons raw rest ih =>
      simp only [performLines]
      cases progress.performLine raw with
      | error fault => rfl
      | ok next =>
          dsimp only
          rw [Nat.add_right_comm]
          exact ih (line + 1) next

/-- The lines behind others are reached only if none of those fails. -/
theorem performLines_append (line : Nat) (progress : Progress) (raws others : List (List Char)) :
    progress.performLines line (raws ++ others) =
      match progress.performLines line raws with
      | (next, none) => next.performLines (line + raws.length) others
      | (stopped, some fault) => (stopped, some fault) := by
  induction raws generalizing progress line with
  | nil => rfl
  | cons raw rest ih =>
      simp only [List.cons_append, performLines]
      cases progress.performLine raw with
      | error fault => rfl
      | ok next =>
          dsimp only
          rw [ih, List.length_cons, Nat.add_right_comm line 1, Nat.add_assoc]

theorem writes_followedBy (before since : Progress) :
    (before.followedBy since).writes = before.writes ++ since.writes :=
  List.reverse_append

end Progress

/-! ## Two texts -/

/-- The text whose lines are those of one and then those of another. -/
def join (first second : String) : String :=
  first ++ "\n" ++ second

theorem lines_join (first second : String) :
    Text.lines (join first second).toList =
      Text.lines first.toList ++ Text.lines second.toList := by
  rw [← Text.lines_append_lineFeed, join, String.toList_append, String.toList_append,
    List.append_assoc]
  rfl

theorem run_join (bindings : Bindings) (first second : String) :
    run bindings (join first second) =
      match run bindings first with
      | (before, none) =>
        (before.followedBy (run before.bindings second).1,
          (run before.bindings second).2.map (LineFault.below (first.toList.count '\n' + 1)))
      | (stopped, some fault) => (stopped, some fault) := by
  rw [run, lines_join, Progress.performLines_append, ← run]
  rcases run bindings first with ⟨before, - | fault⟩
  · dsimp only
    rw [length_lines, Progress.performLines_add, run]
    conv_lhs => rw [← before.followedBy_start]
    rw [Progress.performLines_followedBy]
  · rfl

/-- A joined text is evaluated as its first part and then its second, and an evaluation always comes to
an end. If the first part fails, that is all. If it succeeds and the second part does so too, the text
and the scene are those of the second part, or else of the first; if the second part fails, its line
bears a number that is higher by one more than the line feeds of the first. The bindings and what is
written are always those of the two in turn. -/
theorem evaluate_join (bindings : Bindings) (first second : String) :
    let joined := evaluate bindings (join first second)
    (∃ left, (evaluate bindings first).verdict.engine? = some left) ∧
    (∀ next message, (evaluate bindings first).verdict = .failure next message →
      joined = evaluate bindings first) ∧
    ∀ middle text scene, (evaluate bindings first).verdict = .success middle text scene →
      joined.writes = (evaluate bindings first).writes ++ (evaluate middle second).writes ∧
      (∀ next words picture, (evaluate middle second).verdict = .success next words picture →
        joined.verdict =
          .success next (if words = "" then text else words) (picture.or scene)) ∧
      ∀ next message, (evaluate middle second).verdict = .failure next message →
        (∃ line words, message = located line words) ∧
        ∀ line words, message = located line words →
          joined.verdict =
            .failure next (located (line + first.toList.count '\n' + 1) words) := by
  intro joined
  refine ⟨⟨_, engine?_evaluate bindings first⟩, ?_⟩
  have parts := run_join bindings first second
  rcases ran : run bindings first with ⟨before, - | fault⟩
  · rw [ran] at parts
    rw [evaluate_of_run ran]
    refine ⟨fun _ _ failed => (by cases failed), ?_⟩
    rintro _ _ _ ⟨⟩
    rcases went : run before.bindings second with ⟨since, - | fault⟩
    · simp only [went, Option.map_none] at parts
      simp only [joined, evaluate_of_run parts, evaluate_of_run went]
      refine ⟨before.writes_followedBy since, ?_, fun _ _ failed => (by cases failed)⟩
      rintro _ _ _ ⟨⟩
      rfl
    · simp only [went, Option.map_some] at parts
      simp only [joined, evaluate_of_stopped parts, evaluate_of_stopped went]
      refine ⟨before.writes_followedBy since, fun _ _ _ done => (by cases done), ?_⟩
      rintro _ _ ⟨⟩
      refine ⟨⟨fault.line, fault.fault.message, rfl⟩, fun line words same => ?_⟩
      obtain ⟨rfl, rfl⟩ := located_inj same
      rfl
  · rw [ran] at parts
    simp only [joined, evaluate_of_stopped parts, evaluate_of_stopped ran]
    exact ⟨fun _ _ _ => trivial, fun _ _ _ done => (by cases done)⟩

/-- The failing line is the first of the second text, and there are two line feeds above. -/
theorem failure_told_below_line_feeds :
    (evaluate .empty "n = 7\nprint n\n").verdict = .success ⟨[("n", .int 7)]⟩ "7" none ∧
      (evaluate ⟨[("n", .int 7)]⟩ "raise no").verdict =
        .failure ⟨[("n", .int 7)]⟩ (located 1 "no") ∧
      (evaluate .empty (join "n = 7\nprint n\n" "raise no")).verdict =
        .failure ⟨[("n", .int 7)]⟩ (located 4 "no") := by
  have first : run .empty "n = 7\nprint n\n" =
      (⟨⟨[("n", .int 7)]⟩, "7", none, ["\n", "7"]⟩, none) := by
    decide +kernel
  have second : run ⟨[("n", .int 7)]⟩ "raise no" =
      (⟨⟨[("n", .int 7)]⟩, "", none, []⟩, some ⟨1, .raised "no"⟩) := by
    decide +kernel
  obtain ⟨-, -, rest⟩ := evaluate_join .empty "n = 7\nprint n\n" "raise no"
  rw [evaluate_of_run first] at rest ⊢
  obtain ⟨-, -, fails⟩ := rest _ _ _ rfl
  rw [evaluate_of_stopped second] at fails ⊢
  exact ⟨rfl, rfl, (fails _ _ rfl).2 1 "no" rfl⟩

end RenderFarm.Language
