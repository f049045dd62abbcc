import Mathlib.Logic.Basic
import RenderFarm.RowCursor

/-!
# A cursor in the hands of many threads

Any number of threads claim rows from one cursor, cancel it and ask how many rows are left, without
a lock. A claim is one access to the cursor, a cancel is three, and a question is two, the flag first
and then a count; between any two of them other threads may come in. A `SharedCursor` is the cursor
with the threads around it and the log of all accesses so far. A move is the next access of one
thread, and `play` makes the moves of a list in order.
-/

namespace RenderFarm

namespace SharedCursor

/-- What a thread may ask of the cursor. -/
inductive Call where
  | claim
  | cancel
  | remaining
  deriving DecidableEq

/-- Where a thread stands between two accesses. -/
inductive Stage where
  | free
  /-- In a cancel that found the cursor at this position. -/
  | recording (position : Int)
  /-- In a cancel that has recorded what was left. -/
  | raising
  /-- In a question that found the flag like this. -/
  | counting (flag : Bool)
  deriving DecidableEq

inductive Access where
  /-- A claim, with the row that it got. -/
  | claim (row : Option UInt32)
  | take
  | record
  | raise
  | test (flag : Bool)
  /-- The end of a question, with the answer. -/
  | count (rows : Nat)
  deriving DecidableEq

namespace Access

def isClaim : Access → Bool
  | claim _ => true
  | take | record | raise | test _ | count _ => false

def row? : Access → Option UInt32
  | claim row => row
  | take | record | raise | test _ | count _ => none

end Access

/-- Accesses in their order, each with the number of the thread that made it. -/
abbrev Log := List (Nat × Access)

/-- The rows claimed, in the order of the claims. -/
def rows (log : Log) : List UInt32 :=
  log.filterMap fun entry => entry.2.row?

/-- The number of claims, whether they got a row or not. -/
def claimCount (log : Log) : Nat :=
  log.countP fun entry => entry.2.isClaim

/-- No cancel is under way: each one that has taken the cursor has raised the flag. -/
def Settled (log : Log) : Prop :=
  ∀ thread, log.count (thread, .take) = log.count (thread, .raise)

/-- Only threads on the log matter. -/
theorem settled_iff {log : Log} :
    Settled log ↔ ∀ entry ∈ log, log.count (entry.1, .take) = log.count (entry.1, .raise) := by
  refine ⟨fun settled entry _ => settled entry.1, fun listed thread => ?_⟩
  by_cases absent : ∀ access, (thread, access) ∉ log
  · rw [List.count_eq_zero.2 (absent .take), List.count_eq_zero.2 (absent .raise)]
  · obtain ⟨access, member⟩ := not_forall_not.1 absent
    exact listed _ member

instance (log : Log) : Decidable (Settled log) :=
  decidable_of_iff _ settled_iff.symm

theorem rows_append (before after : Log) : rows (before ++ after) = rows before ++ rows after :=
  List.filterMap_append

theorem rows_cons_of_none {entry : Nat × Access} (none : entry.2.row? = none) (log : Log) :
    rows (entry :: log) = rows log :=
  List.filterMap_cons_none none

end SharedCursor

structure SharedCursor where
  cursor : RowCursor
  /-- Where each thread stands. -/
  stage : Nat → SharedCursor.Stage
  log : SharedCursor.Log

namespace SharedCursor

/-- A cursor at the top row that no thread has touched. -/
def start (size : Dimensions) : SharedCursor :=
  ⟨.start size, fun _ => .free, []⟩

/-- After an access of a thread. -/
def after (shared : SharedCursor) (thread : Nat) (access : Access) (stage : Stage)
    (cursor : RowCursor) : SharedCursor :=
  ⟨cursor, fun other => if other = thread then stage else shared.stage other,
    shared.log ++ [(thread, access)]⟩

theorem stage_after_self (shared : SharedCursor) (thread : Nat) (access : Access) (stage : Stage)
    (cursor : RowCursor) : (shared.after thread access stage cursor).stage thread = stage :=
  if_pos rfl

theorem stage_after_of_ne {other thread : Nat} (different : other ≠ thread) (shared : SharedCursor)
    (access : Access) (stage : Stage) (cursor : RowCursor) :
    (shared.after thread access stage cursor).stage other = shared.stage other :=
  if_neg different

/-- The next access of a thread. A thread that is free begins the call given. -/
def step (shared : SharedCursor) (move : Nat × Call) : SharedCursor :=
  let cursor := shared.cursor
  match shared.stage move.1, move.2 with
  | .free, .claim =>
    let (row, next) := cursor.claim
    shared.after move.1 (.claim row) .free next
  | .free, .cancel =>
    let (position, next) := cursor.take
    shared.after move.1 .take (.recording position) next
  | .free, .remaining =>
    shared.after move.1 (.test cursor.cancelled) (.counting cursor.cancelled) cursor
  | .recording position, _ => shared.after move.1 .record .raising (cursor.record position)
  | .raising, _ => shared.after move.1 .raise .free cursor.raise
  | .counting flag, _ =>
    shared.after move.1 (.count (cursor.remainingAfter flag)) .free cursor

/-- Makes moves one after the other. -/
def play (shared : SharedCursor) (moves : List (Nat × Call)) : SharedCursor :=
  moves.foldl step shared

/-! ## What an access can be -/

/-- An access of a thread at a cursor: where it finds the thread, and where it leaves the thread and
the cursor. -/
inductive Accesses (cursor : RowCursor) : Stage → Access → Stage → RowCursor → Prop
  | claim : Accesses cursor .free (.claim cursor.claim.1) .free cursor.claim.2
  | take : Accesses cursor .free .take (.recording cursor.take.1) cursor.take.2
  | record {position : Int} :
    Accesses cursor (.recording position) .record .raising (cursor.record position)
  | raise : Accesses cursor .raising .raise .free cursor.raise
  | test : Accesses cursor .free (.test cursor.cancelled) (.counting cursor.cancelled) cursor
  | count {flag : Bool} :
    Accesses cursor (.counting flag) (.count (cursor.remainingAfter flag)) .free cursor

namespace Accesses

variable {cursor next : RowCursor} {before stage : Stage}

theorem next_of_take (accesses : Accesses cursor before .take stage next) : next.next = -1 := by
  cases accesses
  rfl

theorem of_test {flag : Bool} (accesses : Accesses cursor before (.test flag) stage next) :
    flag = cursor.cancelled ∧ stage = .counting flag ∧ next = cursor := by
  cases accesses
  exact ⟨rfl, rfl, rfl⟩

theorem of_count {flag : Bool} {rows : Nat}
    (accesses : Accesses cursor (.counting flag) (.count rows) stage next) :
    rows = cursor.remainingAfter flag := by
  cases accesses
  rfl

end Accesses

/-- A move is one access of its thread. -/
theorem step_accesses (shared : SharedCursor) (move : Nat × Call) :
    ∃ access stage cursor, Accesses shared.cursor (shared.stage move.1) access stage cursor ∧
      shared.step move = shared.after move.1 access stage cursor := by
  obtain ⟨thread, call⟩ := move
  cases found : shared.stage thread with
  | free =>
      cases call with
      | claim => exact ⟨_, _, _, .claim, by simp only [step, found]⟩
      | cancel => exact ⟨_, _, _, .take, by simp only [step, found]⟩
      | remaining => exact ⟨_, _, _, .test, by simp only [step, found]⟩
  | recording position => exact ⟨_, _, _, .record, by simp only [step, found]⟩
  | raising => exact ⟨_, _, _, .raise, by simp only [step, found]⟩
  | counting flag => exact ⟨_, _, _, .count, by simp only [step, found]⟩

theorem play_append (shared : SharedCursor) (before after : List (Nat × Call)) :
    shared.play (before ++ after) = (shared.play before).play after :=
  List.foldl_append

/-- What every access keeps holds after all moves. -/
theorem play_keeps {P : SharedCursor → Prop}
    (kept : ∀ {shared : SharedCursor} {thread access stage cursor}, P shared →
      Accesses shared.cursor (shared.stage thread) access stage cursor →
      P (shared.after thread access stage cursor))
    {shared : SharedCursor} (holds : P shared) (moves : List (Nat × Call)) :
    P (shared.play moves) := by
  induction moves generalizing shared with
  | nil => exact holds
  | cons move rest ih =>
      obtain ⟨access, stage, cursor, accesses, stepped⟩ := step_accesses shared move
      have next : P (shared.step move) := stepped ▸ kept holds accesses
      exact ih next

/-! ## Cutting a run at a place of its log -/

/-- Each move adds one entry to the log. -/
theorem log_play (shared : SharedCursor) (moves : List (Nat × Call)) :
    ∃ added, (shared.play moves).log = shared.log ++ added ∧ added.length = moves.length := by
  induction moves generalizing shared with
  | nil => exact ⟨[], (List.append_nil _).symm, rfl⟩
  | cons move rest ih =>
      obtain ⟨access, stage, cursor, -, stepped⟩ := step_accesses shared move
      obtain ⟨added, more, same⟩ := ih (shared.step move)
      refine ⟨(move.1, access) :: added, more.trans ?_, congrArg (· + 1) same⟩
      rw [stepped, after, List.append_assoc, List.singleton_append]

/-- Where the log of a run falls into two parts, so does the run. -/
theorem play_cut {shared : SharedCursor} {moves : List (Nat × Call)} {before after : Log}
    (split : (shared.play moves).log = shared.log ++ (before ++ after)) :
    ∃ first second, (shared.play first).log = shared.log ++ before ∧
      ((shared.play first).play second).log = (shared.play first).log ++ after := by
  obtain ⟨all, whole, length⟩ := log_play shared moves
  obtain rfl := List.append_cancel_left (whole.symm.trans split)
  obtain ⟨early, logged, count⟩ := log_play shared (moves.take before.length)
  obtain ⟨late, further, -⟩ := log_play (shared.play (moves.take before.length))
    (moves.drop before.length)
  have joined : shared.play moves =
      (shared.play (moves.take before.length)).play (moves.drop before.length) := by
    rw [← play_append, List.take_append_drop]
  have fits : before.length ≤ moves.length := by
    rw [← length, List.length_append]
    omega
  have parts : early ++ late = before ++ after := by
    have both : shared.log ++ (early ++ late) = shared.log ++ (before ++ after) := by
      rw [← List.append_assoc, ← logged, ← further, ← joined, split]
    exact List.append_cancel_left both
  obtain ⟨rfl, rfl⟩ := List.append_inj parts (by
    rw [count, List.length_take, Nat.min_eq_left fits])
  exact ⟨_, _, logged, further⟩

theorem start_cut {size : Dimensions} {moves : List (Nat × Call)} {before after : Log}
    (split : ((start size).play moves).log = before ++ after) :
    ∃ first second, ((start size).play first).log = before ∧
      (((start size).play first).play second).log = ((start size).play first).log ++ after := by
  have whole : ((start size).play moves).log = (start size).log ++ (before ++ after) := split
  exact play_cut whole

/-- Where an entry of the log stands, a thread has made that access. -/
theorem play_cut_cons {shared : SharedCursor} {moves : List (Nat × Call)} {thread : Nat}
    {access : Access} {later : Log}
    (split : (shared.play moves).log = shared.log ++ (thread, access) :: later) :
    ∃ stage cursor second, Accesses shared.cursor (shared.stage thread) access stage cursor ∧
      ((shared.after thread access stage cursor).play second).log =
        (shared.after thread access stage cursor).log ++ later := by
  cases moves with
  | nil => simp [play] at split
  | cons move rest =>
      obtain ⟨access', stage, cursor, accesses, stepped⟩ := step_accesses shared move
      obtain ⟨added, more, -⟩ := log_play (shared.step move) rest
      have whole : shared.play (move :: rest) = (shared.step move).play rest := rfl
      rw [whole, more, stepped, after, List.append_assoc, List.singleton_append] at split
      obtain ⟨same, rfl⟩ := List.cons.inj (List.append_cancel_left split)
      obtain ⟨rfl, rfl⟩ := Prod.mk.inj same
      rw [stepped] at more
      exact ⟨stage, cursor, rest, accesses, more⟩

/-! ## Calls that nobody interrupts -/

/-- Three moves of a free thread are a cancel. -/
theorem play_cancel {shared : SharedCursor} {thread : Nat} (free : shared.stage thread = .free) :
    (shared.play (List.replicate 3 (thread, .cancel))).cursor = shared.cursor.cancel := by
  simp [play, List.replicate, step, free, after, RowCursor.cancel]

/-- Two moves of a free thread are a question, which is answered with the rows that remain. -/
theorem play_remaining {shared : SharedCursor} {thread : Nat} (free : shared.stage thread = .free) :
    (shared.play (List.replicate 2 (thread, .remaining))).log = shared.log ++
      [(thread, .test shared.cursor.cancelled), (thread, .count shared.cursor.remaining)] := by
  simp [play, List.replicate, step, free, after, RowCursor.remaining]

end SharedCursor

end RenderFarm
