import RenderFarm.Proofs.Language.Reading

/-!
# A text evaluated again

A text that is evaluated again finds bound what it bound before. It still does the same line by line:
what a line reads was bound by the lines above it, in the same evaluation, or is not bound at all when
the text fails there (`Repeats`). So both evaluations come to the same (`evaluate_again`), but for what
is printed.
-/

namespace RenderFarm.Language

namespace Progress

/-- An evaluation is as far as another and finds bound, besides, what `last` binds. -/
structure Repeats (last : Bindings) (progress again : Progress) : Prop where
  bound : ∀ name, again.bindings.get? name = (progress.bindings.get? name).or (last.get? name)
  text : again.text = progress.text
  scene : again.scene = progress.scene
  ascending : progress.bindings.Ascending
  rising : again.bindings.Ascending

namespace Repeats

variable {last : Bindings} {progress again next : Progress} (repeats : Repeats last progress again)
include repeats

theorem extended : again.bindings.Extends progress.bindings := by
  intro name value bound
  rw [repeats.bound, bound, Option.some_or]

/-- With nothing more to bind, the bindings are the same. -/
theorem bindings_eq (final : progress.bindings = last) : again.bindings = progress.bindings := by
  refine repeats.rising.ext repeats.ascending fun name => ?_
  rw [repeats.bound, ← final, Option.or_self]

theorem insert (name : String) (value : Value) :
    ∀ other, (again.bindings.insert name value).get? other =
      ((progress.bindings.insert name value).get? other).or (last.get? other) := by
  intro other
  rw [Bindings.get?_insert, Bindings.get?_insert, repeats.bound]
  split
  · rw [Option.some_or]
  · rfl

/-- A statement that does not fail does the same again. -/
theorem perform {statement : Statement} (performs : progress.Performs statement next) :
    ∃ later, again.perform statement = .ok later ∧ Repeats last next later := by
  obtain ⟨bound, text, scene, ascending, rising⟩ := id repeats
  cases performs with
  | print rest => exact ⟨_, (Performs.print rest).perform_eq, bound, text, scene, ascending, rising⟩
  | scene read =>
      exact ⟨_, (Performs.scene (picture_mono repeats.extended read)).perform_eq, bound, rfl, rfl,
        ascending, rising⟩
  | assign named read =>
      exact ⟨_, (Performs.assign named (readValue_mono repeats.extended read)).perform_eq,
        repeats.insert _ _, rfl, scene, ascending.insert _ _, rising.insert _ _⟩
  | echo named read =>
      exact ⟨_, (Performs.echo named (lookupName_mono repeats.extended read)).perform_eq, bound, rfl,
        scene, ascending, rising⟩

theorem performLine {raw : List Char} (performed : progress.performLine raw = .ok next) :
    ∃ later, again.performLine raw = .ok later ∧ Repeats last next later := by
  unfold Progress.performLine at performed ⊢
  split <;> rename_i trimmed <;> simp only [trimmed] at performed
  · cases performed
    exact ⟨again, rfl, repeats⟩
  · cases performed
    exact ⟨again, rfl, repeats⟩
  · exact repeats.perform (performs_of_perform performed)

end Repeats

section

variable {progress again : Progress} {fault : Fault}

/-- Whether a statement fails, and how, hangs on the bindings alone. -/
theorem perform_eq_error (same : again.bindings = progress.bindings) {statement : Statement}
    (failed : progress.perform statement = .error fault) :
    again.perform statement = .error fault := by
  cases statement with
  | print rest => cases failed
  | raise rest => exact failed
  | scene words =>
      simp only [perform, same] at failed ⊢
      exact bind_pure_eq_error.2 (bind_pure_eq_error.1 failed)
  | assign target source =>
      simp only [perform, same] at failed ⊢
      split at failed
      · next named =>
        rw [if_pos named]
        exact bind_pure_eq_error.2 (bind_pure_eq_error.1 failed)
      · next unnamed => rwa [if_neg unnamed]
  | echo line =>
      simp only [perform, same] at failed ⊢
      split at failed
      · next named =>
        rw [if_pos named]
        exact bind_pure_eq_error.2 (bind_pure_eq_error.1 failed)
      · next unnamed => rwa [if_neg unnamed]

theorem performLine_eq_error (same : again.bindings = progress.bindings) {raw : List Char}
    (failed : progress.performLine raw = .error fault) : again.performLine raw = .error fault := by
  unfold performLine at failed ⊢
  split <;> rename_i trimmed <;> simp only [trimmed] at failed
  · cases failed
  · cases failed
  · exact perform_eq_error same failed

end

/-- Lines that are performed again come to the same, when `last` is what the first time left bound. -/
theorem Repeats.performLines {progress again : Progress} (line : Nat) (raws : List (List Char))
    (repeats : Repeats (progress.performLines line raws).1.bindings progress again) :
    let first := progress.performLines line raws
    let second := again.performLines line raws
    second.1.bindings = first.1.bindings ∧ second.1.text = first.1.text ∧
      second.1.scene = first.1.scene ∧ second.2 = first.2 := by
  induction raws generalizing line progress again with
  | nil => exact ⟨repeats.bindings_eq rfl, repeats.text, repeats.scene, rfl⟩
  | cons raw rest ih =>
      unfold Progress.performLines at repeats ⊢
      cases performed : progress.performLine raw with
      | ok next =>
          simp only [performed] at repeats ⊢
          obtain ⟨later, performs, repeats⟩ := repeats.performLine performed
          simp only [performs]
          exact ih (line + 1) repeats
      | error fault =>
          simp only [performed] at repeats ⊢
          have same := repeats.bindings_eq rfl
          simp only [performLine_eq_error same performed]
          exact ⟨same, repeats.text, repeats.scene, trivial⟩

end Progress

theorem ascending_run {bindings : Bindings} (ascending : bindings.Ascending) (source : String) :
    (run bindings source).1.bindings.Ascending := by
  have kept : ∀ {before after : Progress} {statement : Statement},
      before.Performs statement after → before.bindings.Ascending → after.bindings.Ascending := by
    intro before after statement performs ascending
    cases performs with
    | print rest => exact ascending
    | scene read => exact ascending
    | assign named read => exact ascending.insert _ _
    | echo named read => exact ascending
  exact run_induction kept ascending source

theorem run_again (source : String) :
    let first := run .empty source
    let second := run first.1.bindings source
    second.1.bindings = first.1.bindings ∧ second.1.text = first.1.text ∧
      second.1.scene = first.1.scene ∧ second.2 = first.2 :=
  Progress.Repeats.performLines 1 (Text.lines source.toList)
    ⟨fun _ => rfl, rfl, rfl, .nil, ascending_run .nil source⟩

/-- A text that is evaluated on nothing bound leaves an engine, and evaluated on that engine it comes
to the same again: to the same text and scene, or to the same failure, with the same bound. -/
theorem evaluate_again (source : String) :
    ∃ bound, (evaluate .empty source).verdict.engine? = some bound ∧
      (evaluate bound source).verdict = (evaluate .empty source).verdict := by
  have same := run_again source
  rcases first : run .empty source with ⟨progress, stop⟩
  rcases second : run progress.bindings source with ⟨later, stopped⟩
  simp only [first, second] at same
  obtain ⟨bound, text, scene, rfl⟩ := same
  refine ⟨progress.bindings, by rw [engine?_evaluate, first], ?_⟩
  cases stopped with
  | none => rw [evaluate_of_run first, evaluate_of_run second, bound, text, scene]
  | some fault => rw [evaluate_of_stopped first, evaluate_of_stopped second, bound]

/-- What is printed may differ: a name stands for itself until it is bound. -/
example : (evaluate .empty "print n\nn = 7").writes = ["n", "\n"] ∧
    (evaluate ⟨[("n", .int 7)]⟩ "print n\nn = 7").writes = ["7", "\n"] := by
  decide +kernel

end RenderFarm.Language
