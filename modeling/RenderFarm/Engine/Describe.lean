import RenderFarm.Scene
import RenderFarm.Text.Quoted

/-!
# Words for evaluations
-/

namespace RenderFarm

/-- A scene is described by its width and height. -/
def describeScene : Option Dimensions → String
  | some size => s!"Some(({size.width}, {size.height}))"
  | none => "None"

/-- The words for a successful evaluation. -/
def describeEvaluation (text : String) (scene : Option Dimensions) : String :=
  s!"Evaluation \x7b text: {Text.quoted text}, scene: {describeScene scene} \x7d"

end RenderFarm
