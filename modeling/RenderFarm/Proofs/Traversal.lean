import Mathlib.Data.List.Basic

/-!
# Lists mapped by functions that can fail

A list is mapped to a list of the same length, member by member, unless the function fails on one of
its members.
-/

namespace RenderFarm

variable {α β : Type} {f : α → Option β} {inputs : List α} {outputs : List β}

/-- A list is mapped when each of its members is. -/
theorem mapM_eq_some_iff : inputs.mapM f = some outputs ↔ inputs.map f = outputs.map some := by
  induction inputs generalizing outputs with
  | nil =>
    rw [List.map_nil, eq_comm (a := []), List.map_eq_nil_iff]
    exact ⟨fun mapped => (Option.some.inj mapped).symm, fun empty => congrArg some empty.symm⟩
  | cons input rest ih =>
    simp only [List.mapM_cons, Option.bind_eq_bind, Option.bind_eq_some_iff, Option.pure_def,
      Option.some.injEq, ih, List.map_cons, eq_comm (a := f input :: rest.map f), List.map_eq_cons_iff]
    constructor
    · rintro ⟨output, first, others, later, rfl⟩
      exact ⟨output, others, rfl, first.symm, later.symm⟩
    · rintro ⟨output, others, rfl, first, later⟩
      exact ⟨output, first.symm, others, later.symm, rfl⟩

/-- It is not when one of its members is not. -/
theorem mapM_eq_none_iff : inputs.mapM f = none ↔ ∃ input ∈ inputs, f input = none := by
  induction inputs with
  | nil => simp
  | cons input rest ih =>
      cases found : f input with
      | none => simp [List.mapM_cons, found]
      | some output =>
          rw [List.mapM_cons, found, List.exists_mem_cons_iff, ← ih]
          cases rest.mapM f <;> simp [found]

theorem length_of_mapM (mapped : inputs.mapM f = some outputs) : outputs.length = inputs.length := by
  simpa using (congrArg List.length (mapM_eq_some_iff.1 mapped)).symm

theorem all_isSome_eq (f : α → Option β) (inputs : List α) :
    (inputs.all fun input => (f input).isSome) = (inputs.mapM f).isSome := by
  induction inputs with
  | nil => rfl
  | cons input rest ih =>
    rw [List.all_cons, List.mapM_cons, ih]
    cases f input with
    | none => rfl
    | some output => cases rest.mapM f <;> rfl

end RenderFarm
