import RenderFarm.Event.Kind
import RenderFarm.Scene

/-!
# Render events

What can be observed of a farm at work: a render that starts, its rows as they are computed, its
end, a source text that failed, and engine output.
-/

namespace RenderFarm

inductive Event where
  /-- A render started; a display takes the size and clears. -/
  | sceneLoaded (size : Dimensions)
  /-- One row is there, row 0 being the bottom of the picture. Rows come in the order in which they
  are computed. -/
  | lineComputed (row : UInt32) (size : Dimensions) (colors : List UInt32)
  /-- A render ended, with its duration in nanoseconds. -/
  | sceneRendered (elapsed : Nat)
  /-- A source text failed on some worker. -/
  | evalError (message : String)
  /-- The engine wrote a text. -/
  | stdoutWritten (text : String)
  deriving DecidableEq

def Event.kind : Event → EventKind
  | sceneLoaded _ => .sceneLoaded
  | lineComputed .. => .lineComputed
  | sceneRendered _ => .sceneRendered
  | evalError _ => .evalError
  | stdoutWritten _ => .stdoutWritten

/-- The row of a line event. -/
def Event.row? : Event → Option UInt32
  | lineComputed row _ _ => some row
  | _ => none

end RenderFarm
