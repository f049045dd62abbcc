import RenderFarm.Proofs.Rendering.Claims
import RenderFarm.Proofs.RowCursor.Sharing

/-!
# What threads that share a cursor can rely on

Rows that were claimed and rows that are reported as left add up to the height of the scene, whatever
threads do to a cursor and in whatever order (`conserves_rows`). `Banded` keeps the rows claimed on
top and the cursor right under them; `Paired` keeps each cancel's accesses together; `Recorded`
follows the number of rows that the first cancel found, through any number of cancels that overlap:
a cancel holds it until it is on record, and the flag is down only as long as some cancel has still to
raise it.
-/

namespace RenderFarm.SharedCursor

variable {height : Nat} {shared : SharedCursor} {thread : Nat} {access : Access} {stage : Stage}
  {cursor : RowCursor}

/-! ## The rows claimed -/

/-- An access that gets no row leaves the rows as they are. -/
theorem rows_after (none : access.row? = none) :
    rows (shared.after thread access stage cursor).log = rows shared.log := by
  simp [after, rows, none]

/-- The rows claimed are the top rows of the scene, and a cursor that is not below zero stands right
under them. Each claim moves the cursor by one, and nothing else moves it further down than to below
zero. -/
structure Banded (height : Nat) (shared : SharedCursor) : Prop where
  size : shared.cursor.size.height.toNat = height
  top : (rows shared.log).map UInt32.toNat = topRows height (rows shared.log).length
  within : (rows shared.log).length ≤ height
  next : 0 ≤ shared.cursor.next → shared.cursor.next + 1 + (rows shared.log).length = height
  low : -1 - (claimCount shared.log : Int) ≤ shared.cursor.next

theorem Banded.start (size : Dimensions) : Banded size.height.toNat (.start size) where
  size := rfl
  top := rfl
  within := Nat.zero_le _
  next := fun _ => by simp [SharedCursor.start, RowCursor.start, rows]
  low := by simp [SharedCursor.start, RowCursor.start, claimCount]; omega

theorem claimCount_after : claimCount (shared.after thread access stage cursor).log =
    claimCount shared.log + if access.isClaim then 1 else 0 := by
  simp only [after, claimCount, List.countP_append, List.countP_singleton]

/-- An access that gets no row, and leaves the cursor where it is or takes it below zero. -/
theorem Banded.pass (banded : Banded height shared) (none : access.row? = none)
    (size : cursor.size = shared.cursor.size)
    (next : 0 ≤ cursor.next → cursor.next = shared.cursor.next)
    (low : -1 - (claimCount (shared.after thread access stage cursor).log : Int) ≤ cursor.next) :
    Banded height (shared.after thread access stage cursor) := by
  have same : rows (shared.after thread access stage cursor).log = rows shared.log :=
    rows_after none
  refine ⟨(congrArg (·.height.toNat) size).trans banded.size, ?_, ?_, fun inside => ?_, low⟩
  · rw [same, banded.top]
  · rw [same]
    exact banded.within
  · have still := next inside
    rw [same]
    simp only [after, still] at inside ⊢
    exact banded.next inside

/-- A claim that succeeds gets the row under those claimed. -/
theorem Banded.after_claim (banded : Banded height shared) {row : UInt32}
    (got : shared.cursor.claim.1 = some row) :
    Banded height (shared.after thread (.claim (some row)) .free shared.cursor.claim.2) := by
  obtain ⟨inside, rfl⟩ := RowCursor.claim_eq_some_iff.1 got
  have next := banded.next inside
  have low := banded.low
  have bound : height < 2 ^ 32 := banded.size ▸ shared.cursor.size.height.toNat_lt
  have position : (UInt32.ofNat shared.cursor.next.toNat).toNat =
      height - 1 - (rows shared.log).length := by
    rw [UInt32.toNat_ofNat', Nat.mod_eq_of_lt (by omega)]
    omega
  have moved : (shared.after thread (.claim (some (.ofNat shared.cursor.next.toNat))) .free
      shared.cursor.claim.2).cursor.next = shared.cursor.next - 1 := rfl
  have more : rows (shared.after thread (.claim (some (.ofNat shared.cursor.next.toNat)))
      .free shared.cursor.claim.2).log =
        rows shared.log ++ [.ofNat shared.cursor.next.toNat] :=
    rows_append _ _
  refine ⟨banded.size, ?_, ?_, fun inside => ?_, ?_⟩
  · rw [more, List.map_append, banded.top, List.length_append, List.length_singleton,
      topRows_succ, List.map_singleton, position]
  · rw [more, List.length_append, List.length_singleton]
    omega
  · rw [more, List.length_append, List.length_singleton]
    omega
  · rw [moved]
    omega

theorem Banded.advance (banded : Banded height shared)
    (accesses : Accesses shared.cursor (shared.stage thread) access stage cursor) :
    Banded height (shared.after thread access stage cursor) := by
  have low := banded.low
  generalize shared.stage thread = before at accesses
  cases accesses with
  | claim =>
      cases got : shared.cursor.claim.1 with
      | some row => exact banded.after_claim got
      | none =>
          have below := RowCursor.claim_eq_none_iff.1 got
          refine banded.pass rfl rfl (fun inside => ?_) ?_
          · simp only [RowCursor.claim] at inside
            omega
          · simp only [claimCount_after, Access.isClaim, RowCursor.claim, if_true]
            omega
  | take =>
      refine banded.pass rfl rfl (fun inside => ?_) ?_
      · simp only [RowCursor.take] at inside
        omega
      · simp only [claimCount_after, Access.isClaim, RowCursor.take]
        omega
  | record | raise | test | count =>
      refine banded.pass rfl rfl (fun _ => rfl) ?_
      rw [claimCount_after]
      exact low

/-- A cursor below zero gets no more rows. -/
theorem rows_after_of_neg (below : shared.cursor.next < 0)
    (accesses : Accesses shared.cursor (shared.stage thread) access stage cursor) :
    access.row? = none ∧ cursor.next < 0 := by
  generalize shared.stage thread = before at accesses
  cases accesses with
  | claim =>
      refine ⟨RowCursor.claim_eq_none_iff.2 below, ?_⟩
      simp only [RowCursor.claim]
      omega
  | take => exact ⟨rfl, Int.negSucc_lt_zero 0⟩
  | record | raise | test | count => exact ⟨rfl, below⟩

/-- No row is claimed once the cursor is below zero. -/
theorem rows_play_of_neg (below : shared.cursor.next < 0) (moves : List (Nat × Call)) :
    rows (shared.play moves).log = rows shared.log := by
  have kept := play_keeps
    (P := fun later => rows later.log = rows shared.log ∧ later.cursor.next < 0)
    (fun {later thread access stage cursor} holds accesses => by
      obtain ⟨none, still⟩ := rows_after_of_neg holds.2 accesses
      exact ⟨(rows_after none).trans holds.1, still⟩) ⟨rfl, below⟩ moves
  exact kept.1

/-! ## Cancels under way -/

namespace Stage

/-- Whether a thread is in a cancel. -/
def isCancelling : Stage → Bool
  | recording _ | raising => true
  | free | counting _ => false

end Stage

/-- A thread that has taken the cursor once more than it has raised the flag is in a cancel. -/
def Paired (shared : SharedCursor) : Prop :=
  ∀ thread, shared.log.count (thread, .take) = shared.log.count (thread, .raise) +
    if (shared.stage thread).isCancelling then 1 else 0

theorem Paired.advance (paired : Paired shared)
    (accesses : Accesses shared.cursor (shared.stage thread) access stage cursor) :
    Paired (shared.after thread access stage cursor) := by
  intro other
  have before := paired other
  by_cases same : other = thread
  · subst same
    generalize shared.stage other = from' at accesses before
    cases accesses <;>
      simp_all [after, Stage.isCancelling, List.count_append]
  · have apart : ∀ access', ((thread, access) == (other, access')) = false := by
      intro access'
      simpa using fun here => absurd here.symm same
    simpa [after, same, List.count_append, List.count_singleton, apart] using before

/-- Where no cancel is under way, no thread is in one. -/
theorem Paired.isCancelling_eq_false (paired : Paired shared) (settled : Settled shared.log)
    (thread : Nat) : (shared.stage thread).isCancelling = false := by
  have both := paired thread
  rw [settled thread] at both
  by_contra cancelling
  simp [cancelling] at both

/-- Cancels that were not under way and have not begun are not under way. -/
theorem Paired.settled_append {before between : Log} (settled : Settled before)
    (calm : ∀ canceller, (canceller, Access.take) ∉ between)
    (paired : Paired shared) (whole : shared.log = before ++ between) : Settled shared.log := by
  intro canceller
  have both := paired canceller
  have none := List.count_eq_zero.2 (calm canceller)
  rw [whole, List.count_append, List.count_append, none] at both ⊢
  have earlier := settled canceller
  omega

/-- Whether a cancel has taken the cursor. -/
def IsTaken (log : Log) : Prop :=
  ∃ thread, (thread, .take) ∈ log

/-- A thread that is in a cancel has taken the cursor. -/
theorem Paired.isTaken (paired : Paired shared)
    (cancelling : (shared.stage thread).isCancelling = true) : IsTaken shared.log := by
  have both := paired thread
  rw [if_pos cancelling] at both
  exact ⟨thread, List.count_pos_iff.1 (by omega)⟩

/-! ## What cancels record -/

/-- Before the first cancel nothing is on record. From then on the number of rows left is in the hands
of a cancel or on record, no cancel holds more, and once it is on record the flag is raised or about to
be. -/
structure Recorded (height : Nat) (shared : SharedCursor) : Prop where
  untaken : ¬IsTaken shared.log → shared.cursor.abandoned = 0 ∧ shared.cursor.cancelled = false ∧
    (shared.cursor.next < 0 → (rows shared.log).length = height)
  below : IsTaken shared.log → shared.cursor.next < 0
  record : IsTaken shared.log → shared.cursor.abandoned + (rows shared.log).length ≤ height
  positions : ∀ thread position, shared.stage thread = .recording position →
    RowCursor.unclaimed position + (rows shared.log).length ≤ height
  held : IsTaken shared.log →
    (∃ thread position, shared.stage thread = .recording position ∧
      RowCursor.unclaimed position + (rows shared.log).length = height) ∨
    shared.cursor.abandoned + (rows shared.log).length = height ∧
      (shared.cursor.cancelled = true ∨ ∃ thread, shared.stage thread = .raising)

theorem Recorded.start (size : Dimensions) : Recorded size.height.toNat (.start size) where
  untaken := fun _ => ⟨rfl, rfl, fun below => by
    simp only [SharedCursor.start, RowCursor.start, rows, List.filterMap_nil, List.length_nil]
      at below ⊢
    omega⟩
  below := fun taken => by simp [IsTaken, SharedCursor.start] at taken
  record := fun taken => by simp [IsTaken, SharedCursor.start] at taken
  positions := fun _ _ stands => by cases stands
  held := fun taken => by simp [IsTaken, SharedCursor.start] at taken

/-- The number of rows that a cancel finds when it takes the cursor. -/
theorem Recorded.unclaimed_next (recorded : Recorded height shared) (banded : Banded height shared)
    (fresh : ¬IsTaken shared.log) :
    RowCursor.unclaimed shared.cursor.next + (rows shared.log).length = height := by
  unfold RowCursor.unclaimed
  by_cases inside : 0 ≤ shared.cursor.next
  · have := banded.next inside
    omega
  · have := (recorded.untaken fresh).2.2 (by omega)
    omega

/-- An access of a thread that is in no cancel, before or afterwards, and that gets no row. -/
theorem Recorded.pass (recorded : Recorded height shared) (none : access.row? = none)
    (other : access ≠ .take) (free : (shared.stage thread).isCancelling = false)
    (still : stage.isCancelling = false) (abandoned : cursor.abandoned = shared.cursor.abandoned)
    (cancelled : cursor.cancelled = shared.cursor.cancelled)
    (next : cursor.next < 0 ↔ shared.cursor.next < 0) :
    Recorded height (shared.after thread access stage cursor) := by
  have same : rows (shared.after thread access stage cursor).log = rows shared.log :=
    rows_after none
  have taken : IsTaken (shared.after thread access stage cursor).log ↔ IsTaken shared.log := by
    simp [IsTaken, after, other.symm]
  have stands : ∀ canceller (stage' : Stage), stage'.isCancelling = true →
      ((shared.after thread access stage cursor).stage canceller = stage' ↔
        shared.stage canceller = stage') := by
    intro canceller stage' cancelling
    by_cases self : canceller = thread
    · subst self
      constructor <;> rintro rfl <;> simp_all [after]
    · simp only [after, self, if_false]
  refine ⟨?_, ?_, ?_, ?_, ?_⟩
  · rw [taken, same]
    intro fresh
    have before := recorded.untaken fresh
    exact ⟨abandoned.trans before.1, cancelled.trans before.2.1, fun gone => before.2.2 (next.1 gone)⟩
  · rw [taken]
    exact fun was => next.2 (recorded.below was)
  · rw [taken, same]
    exact fun was => by
      have := recorded.record was
      simpa only [after, abandoned] using this
  · intro canceller position stage'
    rw [same]
    exact recorded.positions canceller position ((stands _ _ rfl).1 stage')
  · rw [taken, same]
    intro was
    simp only [stands _ (.recording _) rfl, stands _ .raising rfl]
    simpa only [after, abandoned, cancelled] using recorded.held was

theorem IsTaken.after (taken : IsTaken shared.log) :
    IsTaken (shared.after thread access stage cursor).log :=
  taken.imp fun _ member => List.mem_append_left _ member

/-- What cancels hold after an access that gets no row, with what the thread itself then holds. -/
theorem Recorded.positions_after (recorded : Recorded height shared) (none : access.row? = none)
    (own : ∀ position, stage = .recording position →
      RowCursor.unclaimed position + (rows shared.log).length ≤ height) :
    ∀ canceller position,
      (shared.after thread access stage cursor).stage canceller = .recording position →
        RowCursor.unclaimed position +
          (rows (shared.after thread access stage cursor).log).length ≤ height := by
  intro canceller position stands
  rw [rows_after none]
  by_cases self : canceller = thread
  · rw [self, stage_after_self] at stands
    exact own position stands
  · rw [stage_after_of_ne self] at stands
    exact recorded.positions canceller position stands

/-- A claim that succeeds finds the cursor at a row, so no cancel has begun. -/
theorem Recorded.after_claim (recorded : Recorded height shared) (banded : Banded height shared)
    (paired : Paired shared) {row : UInt32} (got : shared.cursor.claim.1 = some row) :
    Recorded height (shared.after thread (.claim (some row)) .free shared.cursor.claim.2) := by
  have inside := (RowCursor.claim_eq_some_iff.1 got).1
  have next := banded.next inside
  have fresh : ¬IsTaken shared.log := fun taken => by
    have := recorded.below taken
    omega
  have still : ¬IsTaken (shared.after thread (.claim (some row)) .free
      shared.cursor.claim.2).log := by
    simpa [IsTaken, after] using fresh
  have more : (rows (shared.after thread (.claim (some row)) .free
      shared.cursor.claim.2).log).length = (rows shared.log).length + 1 := by
    simp [after, rows, Access.row?]
  refine ⟨fun _ => ?_, fun taken => absurd taken still, fun taken => absurd taken still,
    fun canceller position stands => ?_, fun taken => absurd taken still⟩
  · have before := recorded.untaken fresh
    refine ⟨before.1, before.2.1, fun gone => ?_⟩
    simp only [after, RowCursor.claim] at gone
    omega
  · by_cases self : canceller = thread
    · rw [self, stage_after_self] at stands
      cases stands
    · rw [stage_after_of_ne self] at stands
      exact absurd (paired.isTaken (by rw [stands]; rfl)) fresh

/-- The first cancel finds all rows that are left, and a later one finds none. -/
theorem Recorded.after_take (recorded : Recorded height shared) (banded : Banded height shared)
    (free : shared.stage thread = .free) :
    Recorded height
      (shared.after thread .take (.recording shared.cursor.take.1) shared.cursor.take.2) := by
  have taken : IsTaken (shared.after thread .take (.recording shared.cursor.take.1)
      shared.cursor.take.2).log := ⟨thread, by simp [after]⟩
  have same : rows (shared.after thread .take (.recording shared.cursor.take.1)
      shared.cursor.take.2).log = rows shared.log := rows_after rfl
  have bounds : shared.cursor.abandoned + (rows shared.log).length ≤ height ∧
      RowCursor.unclaimed shared.cursor.next + (rows shared.log).length ≤ height := by
    by_cases was : IsTaken shared.log
    · have below := recorded.below was
      have record := recorded.record was
      refine ⟨record, ?_⟩
      simp only [RowCursor.unclaimed]
      omega
    · have all := recorded.unclaimed_next banded was
      have none := (recorded.untaken was).1
      omega
  refine ⟨fun fresh => absurd taken fresh, fun _ => Int.negSucc_lt_zero 0, fun _ => ?_,
    recorded.positions_after rfl fun position holds => ?_, fun _ => ?_⟩
  · rw [same]
    exact bounds.1
  · cases holds
    exact bounds.2
  · rw [same]
    by_cases was : IsTaken shared.log
    · have others : ∀ {canceller}, (shared.stage canceller).isCancelling = true →
          canceller ≠ thread := by
        rintro canceller cancelling rfl
        rw [free] at cancelling
        cases cancelling
      rcases recorded.held was with ⟨holder, position, stands, all⟩ | ⟨all, flag⟩
      · refine .inl ⟨holder, position, ?_, all⟩
        rw [stage_after_of_ne (others (by rw [stands]; rfl)), stands]
      · refine .inr ⟨all, flag.imp_right ?_⟩
        rintro ⟨raiser, stands⟩
        exact ⟨raiser, by rw [stage_after_of_ne (others (by rw [stands]; rfl)), stands]⟩
    · exact .inl ⟨thread, _, stage_after_self .., recorded.unclaimed_next banded was⟩

/-- What a cancel holds comes on record, unless there is more on record. -/
theorem Recorded.after_record (recorded : Recorded height shared) (was : IsTaken shared.log)
    {position : Int} (found : shared.stage thread = .recording position) :
    Recorded height (shared.after thread .record .raising (shared.cursor.record position)) := by
  have own := recorded.positions thread position found
  have before := recorded.record was
  have same : rows (shared.after thread .record .raising
      (shared.cursor.record position)).log = rows shared.log := rows_after rfl
  refine ⟨fun fresh => absurd was.after fresh, fun _ => recorded.below was, fun _ => ?_,
    recorded.positions_after rfl nofun, fun _ => ?_⟩
  · rw [same]
    simp only [after, RowCursor.record]
    omega
  · rw [same]
    rcases recorded.held was with ⟨holder, other, stands, all⟩ | ⟨all, -⟩
    · by_cases self : holder = thread
      · rw [self, found] at stands
        cases stands
        refine .inr ⟨?_, .inr ⟨thread, stage_after_self ..⟩⟩
        simp only [after, RowCursor.record]
        omega
      · exact .inl ⟨holder, other, by rw [stage_after_of_ne self, stands], all⟩
    · refine .inr ⟨?_, .inr ⟨thread, stage_after_self ..⟩⟩
      simp only [after, RowCursor.record]
      omega

theorem Recorded.after_raise (recorded : Recorded height shared) (was : IsTaken shared.log)
    (found : shared.stage thread = .raising) :
    Recorded height (shared.after thread .raise .free shared.cursor.raise) := by
  have same : rows (shared.after thread .raise .free shared.cursor.raise).log =
      rows shared.log := rows_after rfl
  refine ⟨fun fresh => absurd was.after fresh, fun _ => recorded.below was,
    fun _ => by rw [same]; exact recorded.record was, recorded.positions_after rfl nofun,
    fun _ => ?_⟩
  rw [same]
  rcases recorded.held was with ⟨holder, position, stands, all⟩ | ⟨all, -⟩
  · have self : holder ≠ thread := by
      rintro rfl
      rw [found] at stands
      cases stands
    exact .inl ⟨holder, position, by rw [stage_after_of_ne self, stands], all⟩
  · exact .inr ⟨all, .inl rfl⟩

theorem Recorded.advance (recorded : Recorded height shared) (banded : Banded height shared)
    (paired : Paired shared)
    (accesses : Accesses shared.cursor (shared.stage thread) access stage cursor) :
    Recorded height (shared.after thread access stage cursor) := by
  generalize found : shared.stage thread = before at accesses
  have calm : before.isCancelling = false → (shared.stage thread).isCancelling = false :=
    fun free => by rw [found, free]
  cases accesses with
  | test => exact recorded.pass rfl nofun (calm rfl) rfl rfl rfl .rfl
  | count => exact recorded.pass rfl nofun (calm rfl) rfl rfl rfl .rfl
  | claim =>
      cases got : shared.cursor.claim.1 with
      | none =>
          have below := RowCursor.claim_eq_none_iff.1 got
          refine recorded.pass rfl nofun (calm rfl) rfl rfl rfl ?_
          simp only [RowCursor.claim]
          omega
      | some row => exact recorded.after_claim banded paired got
  | take => exact recorded.after_take banded found
  | record => exact recorded.after_record (paired.isTaken (by rw [found]; rfl)) found
  | raise => exact recorded.after_raise (paired.isTaken (by rw [found]; rfl)) found

/-! ## Runs -/

/-- What is known of a shared cursor at every moment. -/
structure Lawful (height : Nat) (shared : SharedCursor) : Prop where
  banded : Banded height shared
  paired : Paired shared
  recorded : Recorded height shared

theorem Lawful.start (size : Dimensions) : Lawful size.height.toNat (.start size) :=
  ⟨.start size, fun _ => rfl, .start size⟩

theorem Lawful.advance (lawful : Lawful height shared)
    (accesses : Accesses shared.cursor (shared.stage thread) access stage cursor) :
    Lawful height (shared.after thread access stage cursor) :=
  ⟨lawful.banded.advance accesses, lawful.paired.advance accesses,
    lawful.recorded.advance lawful.banded lawful.paired accesses⟩

theorem Lawful.play (lawful : Lawful height shared) (moves : List (Nat × Call)) :
    Lawful height (shared.play moves) :=
  play_keeps (fun lawful accesses => lawful.advance accesses) lawful moves

/-- The rows claimed are distinct. -/
theorem Banded.nodup (banded : Banded height shared) : (rows shared.log).Nodup := by
  have ordered := pairwise_topRows banded.within
  rw [← banded.top, List.pairwise_map] at ordered
  refine ordered.imp ?_
  rintro row _ descends rfl
  exact Nat.lt_irrefl _ descends

/-- Few claims leave a cursor within a signed word of 64 bits. -/
theorem Banded.toInt_next (banded : Banded height shared)
    (few : claimCount shared.log < 2 ^ 63) :
    (Int64.ofInt shared.cursor.next).toInt = shared.cursor.next := by
  have low := banded.low
  have bound : height < 2 ^ 32 := banded.size ▸ shared.cursor.size.height.toNat_lt
  refine Int64.toInt_ofInt_of_le (by omega) ?_
  by_cases inside : 0 ≤ shared.cursor.next
  · have := banded.next inside
    omega
  · omega

/-- A thread that makes no access stays where it stands. -/
theorem stage_play {shared : SharedCursor} {moves : List (Nat × Call)} {added : Log}
    (logged : (shared.play moves).log = shared.log ++ added)
    (others : ∀ entry ∈ added, entry.1 ≠ thread) :
    (shared.play moves).stage thread = shared.stage thread := by
  induction moves generalizing shared added with
  | nil => rfl
  | cons move rest ih =>
      obtain ⟨access, stage, cursor, -, stepped⟩ := step_accesses shared move
      obtain ⟨later, more, -⟩ := log_play (shared.step move) rest
      have whole : shared.play (move :: rest) = (shared.step move).play rest := rfl
      rw [whole, more, stepped, after, List.append_assoc, List.append_cancel_left_eq] at logged
      subst logged
      rw [whole, ih more fun entry member => others entry (List.mem_append_right _ member), stepped,
        stage_after_of_ne (others _ (.head _)).symm]

/-- What a question is answered with that no cancel comes in between. -/
theorem Lawful.count_eq {before between : Log} {flag : Bool} (first : Lawful height shared)
    (logged : shared.log = before) (settled : Settled before) (read : flag = shared.cursor.cancelled)
    {last : SharedCursor} (second : Lawful height last) {entry : Nat × Access}
    (further : last.log = before ++ entry :: between) (test : entry.2 = .test flag)
    (calm : ∀ canceller, (canceller, Access.take) ∉ between) :
    last.cursor.remainingAfter flag + (rows last.log).length = height := by
  subst logged
  have quiet : ∀ canceller, (canceller, Access.take) ∉ entry :: between := by
    intro canceller member
    rcases List.mem_cons.1 member with rfl | later
    · cases test
    · exact calm canceller later
  have still := second.paired.settled_append settled quiet further
  have taken : IsTaken last.log ↔ IsTaken shared.log := by
    rw [further]
    refine exists_congr fun canceller => ?_
    rw [List.mem_append, or_iff_left (quiet canceller)]
  by_cases was : IsTaken shared.log
  · -- Every cancel has ended, so the flag is up and what the first one found is on record.
    have raised : flag = true := by
      rcases first.recorded.held was with ⟨holder, position, stands, -⟩ | ⟨-, up | ⟨raiser, stands⟩⟩
      · have := first.paired.isCancelling_eq_false settled holder
        rw [stands] at this
        cases this
      · exact read.trans up
      · have := first.paired.isCancelling_eq_false settled raiser
        rw [stands] at this
        cases this
    rcases second.recorded.held (taken.2 was) with ⟨holder, position, stands, -⟩ | ⟨all, -⟩
    · have := second.paired.isCancelling_eq_false still holder
      rw [stands] at this
      cases this
    · simpa only [RowCursor.remainingAfter, raised, if_true] using all
  · have lowered : flag = false := read.trans (first.recorded.untaken was).2.1
    have all := second.recorded.unclaimed_next second.banded (fun is => was (taken.1 is))
    simpa only [RowCursor.remainingAfter, lowered, Bool.false_eq_true, if_false] using all

variable {size : Dimensions} {moves : List (Nat × Call)} {before between later : Log}

/-- No claim succeeds after a cancel has taken the cursor. -/
theorem rows_of_take
    (split : ((start size).play moves).log = before ++ (thread, .take) :: later) :
    rows later = [] := by
  obtain ⟨first, second, -, further⟩ := start_cut split
  obtain ⟨stage, cursor, rest, accesses, more⟩ := play_cut_cons further
  have below : (((start size).play first).after thread .take stage cursor).cursor.next < 0 := by
    change cursor.next < 0
    rw [accesses.next_of_take]
    exact Int.negSucc_lt_zero 0
  have none := rows_play_of_neg below rest
  rw [more, rows_append] at none
  exact List.self_eq_append_right.1 none.symm

/-- A question that no cancel overlaps is answered with the rows not claimed. -/
theorem count_add_rows {flag : Bool} {count : Nat}
    (split : ((start size).play moves).log =
      before ++ (thread, .test flag) :: (between ++ (thread, .count count) :: later))
    (others : ∀ entry ∈ between, entry.1 ≠ thread) (settled : Settled before)
    (calm : ∀ canceller, (canceller, .take) ∉ between) :
    count + (rows (before ++ between)).length = size.height.toNat := by
  obtain ⟨first, second, logged, further⟩ := start_cut split
  obtain ⟨stage, cursor, rest, tests, more⟩ := play_cut_cons further
  obtain ⟨third, fourth, continued, remaining⟩ := play_cut more
  obtain ⟨stage', cursor', -, counts, -⟩ := play_cut_cons remaining
  obtain ⟨read, rfl, -⟩ := tests.of_test
  rw [stage_play continued others, stage_after_self] at counts
  have early := (Lawful.start size).play first
  have late := (early.advance tests).play third
  have reached : ((((start size).play first).after thread (.test flag) (.counting flag)
      cursor).play third).log = before ++ (thread, .test flag) :: between := by
    rw [continued, after, logged, List.append_assoc, List.singleton_append]
  have all := early.count_eq logged settled read late reached rfl calm
  rw [reached, rows_append, rows_cons_of_none rfl, ← rows_append] at all
  rw [counts.of_count]
  exact all

/-- Whatever threads do to a cursor, each access being a step of its own: the rows claimed are the
highest ones in descending order; no claim succeeds after a cancel has taken the cursor; and a question
that no cancel overlaps is answered with the height less the rows claimed when it counts. As long as
there are fewer than `2 ^ 63` claims, a signed word of 64 bits holds the cursor. -/
theorem conserves_rows (size : Dimensions) (moves : List (Nat × Call))
    (few : claimCount ((start size).play moves).log < 2 ^ 63) :
    let height := size.height.toNat
    let shared := (start size).play moves
    ((rows shared.log).map UInt32.toNat = topRows height (rows shared.log).length ∧
      (rows shared.log).length ≤ height ∧ (rows shared.log).Nodup) ∧
    (∀ before thread later, shared.log = before ++ (thread, .take) :: later → rows later = []) ∧
    (∀ before between later thread flag count,
      shared.log = before ++ (thread, .test flag) :: (between ++ (thread, .count count) :: later) →
      (∀ entry ∈ between, entry.1 ≠ thread) → Settled before →
      (∀ canceller, (canceller, .take) ∉ between) →
      count + (rows (before ++ between)).length = height) ∧
    (Int64.ofInt shared.cursor.next).toInt = shared.cursor.next := by
  intro height shared
  have banded := ((Lawful.start size).play moves).banded
  refine ⟨⟨banded.top, banded.within, banded.nodup⟩, ?_, ?_, banded.toInt_next few⟩
  · intro before thread later split
    exact rows_of_take split
  · intro before between later thread flag count split others settled calm
    exact count_add_rows split others settled calm

/-- Two threads cancel at the same time after the top row was claimed. A third asks when both are done,
and a claim that comes to nothing makes no difference to the answer. -/
theorem overlapping_cancels_leave_two_rows :
    let moves : List (Nat × Call) :=
      [(0, .claim), (1, .cancel), (2, .cancel), (2, .cancel), (0, .claim), (2, .cancel), (1, .cancel),
        (1, .cancel), (3, .remaining), (0, .claim), (3, .remaining)]
    let before : Log :=
      [(0, .claim (some 2)), (1, .take), (2, .take), (2, .record), (0, .claim none), (2, .raise),
        (1, .record), (1, .raise)]
    let between : Log := [(0, .claim none)]
    let log := ((start ⟨1, 3⟩).play moves).log
    claimCount log < 2 ^ 63 ∧
      log = before ++ (3, .test true) :: (between ++ (3, .count 2) :: []) ∧
      Settled before ∧ 2 + (rows (before ++ between)).length = 3 := by
  intro moves before between log
  have few : claimCount log < 2 ^ 63 := by decide
  have split : log = before ++ (3, .test true) :: (between ++ (3, .count 2) :: []) := by decide
  have settled : Settled before := by decide
  refine ⟨few, split, settled, ?_⟩
  exact (conserves_rows ⟨1, 3⟩ moves few).2.2.1 before between [] 3 true 2 split (by decide) settled
    (by simp [between])

end RenderFarm.SharedCursor
