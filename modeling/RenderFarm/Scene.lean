/-!
# Scenes and the engines that make them

An engine turns source text into a scene, and a scene into rows of packed colors. Both may fail,
and both may panic, which ends the thread they run on. `Scene` and `Evaluator` are all that a
worker knows of them.
-/

namespace RenderFarm

/-- Width and height of a scene in pixels. -/
structure Dimensions where
  width : UInt32
  height : UInt32
  deriving DecidableEq, Inhabited, Repr

/-- How an evaluation ended: with a text and perhaps a scene, with a message for the user, or not
at all. An engine that panicked is gone. -/
inductive Verdict (ε σ : Type) where
  | success (engine : ε) (text : String) (scene : Option σ)
  | failure (engine : ε) (message : String)
  | panic

/-- An evaluation: the texts the engine wrote to its output, in order, and how it ended. -/
structure Evaluation (ε σ : Type) where
  writes : List String
  verdict : Verdict ε σ

/-- A kind of scenes. -/
class Scene (σ : Type) where
  size : σ → Dimensions
  /-- The colors of one row and the scene after it, whose sampling state may have moved on; none
  when the scene panics. -/
  drawRow : σ → UInt32 → Option (List UInt32 × σ)

/-- What an engine makes of the question for the names bound at top level. -/
inductive Naming where
  /-- The names in ascending order. -/
  | known (names : List String)
  /-- The engine cannot tell. -/
  | failure
  | panic

/-- An evaluator of source text with states `ε` and scenes `σ`. -/
class Evaluator (ε : Type) (σ : outParam Type) where
  evaluate : ε → String → Evaluation ε σ
  names : ε → Naming

/-- What the load of an engine comes to. -/
inductive Load (ε : Type) where
  | engine (engine : ε)
  | failure (message : String)
  | panic

/-- What an evaluation looks like from outside its worker. -/
inductive Outcome where
  | success (text : String) (scene : Option Dimensions)
  | failure (message : String)
  deriving DecidableEq, Inhabited

namespace Outcome

def isSuccess : Outcome → Bool
  | success .. => true
  | failure _ => false

def text : Outcome → Option String
  | success text _ => some text
  | failure _ => none

/-- The size of the scene, when one was made. -/
def scene : Outcome → Option Dimensions
  | success _ scene => scene
  | failure _ => none

def error : Outcome → Option String
  | success .. => none
  | failure message => some message

end Outcome

end RenderFarm
