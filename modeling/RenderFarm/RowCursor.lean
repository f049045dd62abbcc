import RenderFarm.Scene

/-!
# The row cursor

A render hands out its rows through a cursor that several threads share. The cursor stands at the
next row, the highest first, and below zero when no row is left. A claim is one atomic access; a
cancel is three: it takes the cursor away, records how many rows were left, and raises a flag.
-/

namespace RenderFarm

structure RowCursor where
  size : Dimensions
  /-- The row that the next claim gets, if it is not negative. -/
  next : Int
  /-- The rows that were left when a cancel took the cursor away. -/
  abandoned : Nat
  cancelled : Bool
  deriving DecidableEq

namespace RowCursor

/-- A cursor at the top row. -/
def start (size : Dimensions) : RowCursor :=
  ⟨size, (size.height.toNat : Int) - 1, 0, false⟩

/-- The number of rows a cursor position leaves. -/
def unclaimed (position : Int) : Nat :=
  (position + 1).toNat

/-- Takes the next row and moves the cursor on, whether or not there was a row. -/
def claim (cursor : RowCursor) : Option UInt32 × RowCursor :=
  (if 0 ≤ cursor.next then some (.ofNat cursor.next.toNat) else none,
    { cursor with next := cursor.next - 1 })

/-! ## Cancelling -/

/-- Swaps the cursor to below zero; gives the position it had. -/
def take (cursor : RowCursor) : Int × RowCursor :=
  (cursor.next, { cursor with next := -1 })

/-- Records the rows left at a position, unless more are on record. -/
def record (cursor : RowCursor) (position : Int) : RowCursor :=
  { cursor with abandoned := max cursor.abandoned (unclaimed position) }

/-- Raises the flag that drivers test. -/
def raise (cursor : RowCursor) : RowCursor :=
  { cursor with cancelled := true }

/-- Stops handing out rows. Rows claimed before stay claimed. -/
def cancel (cursor : RowCursor) : RowCursor :=
  let (position, taken) := cursor.take
  (taken.record position).raise

/-! ## Counting -/

/-- The rows left, read after the flag was read: the record of a cancel if there was one, the
cursor otherwise. -/
def remainingAfter (cursor : RowCursor) (flag : Bool) : Nat :=
  if flag then cursor.abandoned else unclaimed cursor.next

/-- The rows not claimed; after a cancel, those that it left unclaimed. -/
def remaining (cursor : RowCursor) : Nat :=
  cursor.remainingAfter cursor.cancelled

/-- Claims up to `count` rows, one after the other. -/
def claimMany : Nat → RowCursor → List (Option UInt32) × RowCursor
  | 0, cursor => ([], cursor)
  | count + 1, cursor =>
    let (row, next) := cursor.claim
    let (rows, last) := claimMany count next
    (row :: rows, last)

/-- Claims until none is left, the last claim being the first to fail. -/
def claimAll (cursor : RowCursor) : List UInt32 × RowCursor :=
  let (rows, last) := claimMany (unclaimed cursor.next + 1) cursor
  (rows.reduceOption, last)

/-- Several threads that each claim until none is left, one after the other; the rows of all, in
ascending order. -/
def claimByThreads : Nat → RowCursor → List UInt32 × RowCursor
  | 0, cursor => ([], cursor)
  | threads + 1, cursor =>
    let (rows, next) := cursor.claimAll
    let (others, last) := claimByThreads threads next
    (others ++ rows.reverse, last)

end RowCursor

end RenderFarm
