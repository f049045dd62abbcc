/-!
# What a worker is doing

A worker is created, loads its engine once, and from then on goes back and forth between idling
and serving one request. `Worker.State.allows` says which moves belong to that life.
-/

namespace RenderFarm

inductive Worker.State where
  /-- No engine was asked for yet. -/
  | created
  | loading
  /-- The engine is there and no request was served yet. -/
  | loaded
  | idle
  | evaluating
  | computing (row : UInt32)
  deriving DecidableEq, Inhabited, Repr

namespace Worker.State

def isIdle : Worker.State → Bool
  | idle => true
  | _ => false

/-- Whether a worker's life has a move from one state to the other. -/
def allows : Worker.State → Worker.State → Bool
  | created, loading => true
  | loading, loaded => true
  | loaded, evaluating | idle, evaluating => true
  | loaded, computing _ | idle, computing _ => true
  | loaded, idle | evaluating, idle | computing _, idle => true
  | _, _ => false

/-- The words shown to the user. -/
def label : Worker.State → String
  | created => "created"
  | loading => "loading"
  | loaded => "loaded"
  | idle => "idle"
  | evaluating => "eval"
  | computing row => s!"compute row {row}"

/-- The form used inside descriptions of larger things. -/
def describe : Worker.State → String
  | created => "Created"
  | loading => "Loading"
  | loaded => "Loaded"
  | idle => "Idle"
  | evaluating => "Eval"
  | computing row => s!"Compute \x7b row: {row} \x7d"

end Worker.State

end RenderFarm
