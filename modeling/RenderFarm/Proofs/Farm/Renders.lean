import RenderFarm.Proofs.Farm.Evaluating
import RenderFarm.Proofs.Farm.Frame

/-!
# The renders of a farm

The cursors of a farm tell the sizes of all renders begun so far. Evaluations do not begin any, and a
render, as long as callbacks begin none of their own, is one more of its size (`Farm.sizes_render`).
-/

namespace RenderFarm.Farm

variable {ε σ Audience : Type}

/-- The sizes of the renders begun so far, in order. -/
def sizes (farm : Farm ε σ Audience) : List Dimensions :=
  farm.cursors.toList.map RowCursor.size

theorem sizes_beginRender (farm : Farm ε σ Audience) (size : Dimensions) :
    (farm.beginRender size).2.sizes = farm.sizes ++ [size] := by
  simp [sizes, beginRender, RowCursor.start]

theorem sizes_endRender (farm : Farm ε σ Audience) (render : Nat) :
    (farm.endRender render).sizes = farm.sizes := by
  obtain ⟨active, ended⟩ := farm.endRender_eq render
  rw [ended]
  rfl

/-- A claim leaves a cursor its size. -/
theorem sizes_claim {farm : Farm ε σ Audience} {render : Nat} {cursor : RowCursor}
    (there : farm.cursors[render]? = some cursor) :
    (farm.modifyCursor render fun _ => cursor.claim.2).sizes = farm.sizes := by
  refine List.ext_getElem? fun other => ?_
  simp only [sizes, modifyCursor, List.getElem?_map, Array.getElem?_toList, Array.getElem?_modify]
  split
  · next same =>
    subst same
    rw [there]
    rfl
  · rfl

variable [Scene σ] [Evaluator ε σ] {listeners : Listeners ε σ Audience}
  (unheard : Unheard listeners (sizes : Farm ε σ Audience → List Dimensions))
include unheard

omit [Scene σ] [Evaluator ε σ] in
theorem sizes_keeps (value : List Dimensions) :
    Keeps listeners fun farm : Farm ε σ Audience => farm.sizes = value :=
  (unheard.lasting value).keeps fun _ _ _ same => same

theorem sizes_stepDriver (render id : Nat) (driver : RowDriver) (farm : Farm ε σ Audience) :
    (stepDriver listeners render id driver farm).2.sizes = farm.sizes :=
  (sizes_keeps unheard farm.sizes).stepDriver (fun _ _ there same => (sizes_claim there).trans same)
    (fun event other same => (unheard.publish event other).trans same) id driver rfl

theorem sizes_turn (render id : Nat) (driver : RowDriver) (farm : Farm ε σ Audience) :
    (turn listeners render id driver farm).2.sizes = farm.sizes := by
  unfold turn
  dsimp only
  split <;> simp only [sizes_stepDriver unheard]

theorem sizes_turns (render id : Nat) (drivers : List RowDriver) (farm : Farm ε σ Audience) :
    (turns listeners render id drivers farm).2.sizes = farm.sizes := by
  induction drivers generalizing id farm with
  | nil => rfl
  | cons driver rest ih => exact (ih _ _).trans (sizes_turn unheard _ _ _ _)

theorem sizes_rounds (render count : Nat) (drivers : List RowDriver) (farm : Farm ε σ Audience) :
    (rounds listeners render count drivers farm).2.sizes = farm.sizes := by
  induction count generalizing drivers farm with
  | zero => rfl
  | succ count ih =>
      unfold rounds
      split
      · rfl
      · exact (ih _ _).trans (sizes_turns unheard _ _ _ _)

/-- An evaluation begins no render. -/
theorem sizes_evaluate (farm : Farm ε σ Audience) (source : String) :
    (farm.evaluate listeners source).2.sizes = farm.sizes := by
  have keeps := sizes_keeps unheard farm.sizes
  exact keeps.evaluate source (fun _ _ same => (unheard.publish _ _).trans same) rfl

/-- A render is one more, of its size. -/
theorem sizes_render (farm : Farm ε σ Audience) (size : Dimensions) :
    (farm.render listeners size).2.sizes = farm.sizes ++ [size] := by
  simp only [render, unheard.publish, sizes_endRender, sizes_rounds unheard, sizes_beginRender]

end RenderFarm.Farm
