import RenderFarm.Scenario.Command

/-!
# Logs without the order of threads

When several workers render, the order in which rows are completed is not determined. A log is
brought into an order that does not depend on it: entries are sorted by tag, and rows that follow
each other in one place are sorted by number. Which worker computed a row is not told.
-/

namespace RenderFarm.Scenario

/-- Sorts by a key that has a strict order, keeping the order of equal keys. -/
def sortBy {α κ : Type} [LT κ] [DecidableLT κ] (key : α → κ) (items : List α) : List α :=
  items.mergeSort fun a b => !decide (key b < key a)

def byTag (entries : List Entry) : List Entry :=
  sortBy (·.tag) entries

/-- Sorts each maximal run of items that have a row, neighbours being in one run if `together`. -/
def sortRuns {α : Type} (row? : α → Option UInt32) (together : α → α → Bool) (items : List α) :
    List α :=
  let joined (a b : α) : Bool := (row? a).isSome && (row? b).isSome && together a b
  (items.splitBy joined).flatMap (sortBy fun item => (row? item).getD 0)

/-- Where the computations of all workers are told. -/
def anyWorker : String := "state:*"

/-- A computation is told of no worker in particular. -/
def hideWorker (entry : Entry) : Entry :=
  match entry.happening with
  | .entered (.computing _) => { entry with tag := anyWorker }
  | _ => entry

/-- Sorts the rows within runs of line events. -/
def sortEvents (events : List Event) : List Event :=
  sortRuns Event.row? (fun _ _ => true) events

def Answer.sortEvents : Answer → Answer
  | .events found => .events (Scenario.sortEvents found)
  | other => other

/-- The row that an entry tells of, as a line event or as a computation. -/
def Entry.row? (entry : Entry) : Option UInt32 :=
  match entry.happening with
  | .saw event => event.row?
  | .entered (.computing row) => some row
  | _ => none

def Entry.sortEvents (entry : Entry) : Entry :=
  match entry.happening with
  | .did answer => { entry with happening := .did answer.sortEvents }
  | _ => entry

/-- The log in an order that several workers agree on. -/
def normalize (entries : List Entry) : List Entry :=
  sortRuns Entry.row? (fun a b => a.tag == b.tag)
    (byTag (entries.map fun entry => (hideWorker entry).sortEvents))

end RenderFarm.Scenario
