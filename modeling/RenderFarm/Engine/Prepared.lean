import RenderFarm.Language.Evaluation

/-!
# An engine with prepared answers

This engine evaluates the scene language, save for the source texts for which its script holds an
answer. Scripted answers reach what the language alone cannot: panics, failures with any message,
scenes whose rows depend on how often they were asked, and rows that panic.
-/

namespace RenderFarm.Prepared

/-- A scene drawn by hand. -/
structure Sketch where
  size : Dimensions
  /-- The rows from the bottom; rows beyond the last are empty. Without them a row shows its number
  and how many rows were asked for so far. -/
  rows : Option (List (List UInt32))
  panicRows : List UInt32
  deriving DecidableEq

inductive Response where
  | panic
  | failure (message : String)
  /-- What the language makes of the text, without its scene. -/
  | withoutScene
  | success (writes : List String) (text : String) (scene : Option Sketch)

/-- An answer to one source text, on one worker or on all. -/
structure Rule where
  source : String
  worker : Option Nat
  response : Response

/-- A load that does not succeed, on one worker or on all: with a message, or by a panic. -/
structure LoadRule where
  worker : Option Nat
  message : Option String

structure Script where
  loads : List LoadRule
  /-- Whether the engine cannot tell its names. -/
  namesFail : Bool
  rules : List Rule

def Script.empty : Script := ⟨[], false, []⟩

/-- Whether a rule for `chosen`, or for every worker, holds on `worker`. -/
def holdsOn (chosen : Option Nat) (worker : Nat) : Bool :=
  match chosen with
  | none => true
  | some id => id == worker

/-- The engine of one worker. -/
structure Engine where
  script : Script
  worker : Nat
  bindings : Language.Bindings

/-- A scene in its sampling state. -/
inductive Drawing where
  | picture (scene : Language.Picture)
  | sketch (scene : Sketch) (asked : Nat)

/-- What the load of a worker's engine comes to; the first load rule that holds decides. -/
def Script.load (script : Script) (worker : Nat) : Load Engine :=
  match script.loads.find? fun rule => holdsOn rule.worker worker with
  | none => .engine ⟨script, worker, .empty⟩
  | some rule =>
    match rule.message with
    | some message => .failure message
    | none => .panic

/-- The first answer to a source text on a worker. -/
def Script.answer? (script : Script) (worker : Nat) (source : String) : Option Response :=
  (script.rules.find? fun rule => rule.source == source && holdsOn rule.worker worker).map
    (·.response)

/-- The engine after the language evaluated a text, with what that came to. -/
def evaluateLanguage (engine : Engine) (source : String) : Evaluation Engine Drawing :=
  let evaluation := Language.evaluate engine.bindings source
  ⟨evaluation.writes,
    match evaluation.verdict with
    | .success bindings text scene =>
      .success { engine with bindings := bindings } text (scene.map Drawing.picture)
    | .failure bindings message => .failure { engine with bindings := bindings } message
    | .panic => .panic⟩

def withoutScene : Verdict Engine Drawing → Verdict Engine Drawing
  | .success engine text _ => .success engine text none
  | other => other

def evaluate (engine : Engine) (source : String) : Evaluation Engine Drawing :=
  match engine.script.answer? engine.worker source with
  | none => evaluateLanguage engine source
  | some .panic => ⟨[], .panic⟩
  | some (.failure message) => ⟨[], .failure engine message⟩
  | some .withoutScene =>
    let evaluation := evaluateLanguage engine source
    { evaluation with verdict := withoutScene evaluation.verdict }
  | some (.success writes text scene) =>
    ⟨writes, .success engine text (scene.map fun sketch => .sketch sketch 0)⟩

/-- The colors of a row of a sketch that is asked for the `asked`th time. -/
def Sketch.row (sketch : Sketch) (row : UInt32) (asked : Nat) : Option (List UInt32) :=
  if sketch.panicRows.contains row then none
  else
    match sketch.rows with
    | some rows => some (rows[row.toNat]?.getD [])
    | none => some [row, .ofNat asked]

def Drawing.size : Drawing → Dimensions
  | .picture scene => scene.size
  | .sketch scene _ => scene.size

def Drawing.drawRow (row : UInt32) : Drawing → Option (List UInt32 × Drawing)
  | .picture scene => (scene.drawRow row).map fun colors => (colors, .picture scene)
  | .sketch scene asked =>
    (scene.row row (asked + 1)).map fun colors => (colors, .sketch scene (asked + 1))

instance : Scene Drawing where
  size := Drawing.size
  drawRow drawing row := drawing.drawRow row

instance : Evaluator Engine Drawing where
  evaluate := evaluate
  names engine := if engine.script.namesFail then .failure else .known engine.bindings.names

end RenderFarm.Prepared
