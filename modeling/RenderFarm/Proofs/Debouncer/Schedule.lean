import RenderFarm.Proofs.Debouncer.Punctual

/-!
# A debouncer keeps to its timeline

The operations carried out so far settle what is handed over, except for one value that may wait
(`Outlook`). While it waits it has the last deadline under way, and no deadline is due at the time of an
operation. So it is given up by an operation or handed over by its deadline, each when the timeline says
so, and no other deadline comes to anything (`Follows.step`), however often the generations have gone
around.
-/

namespace RenderFarm.Debouncing

variable {α β : Type}

namespace Punctual

/-- What was handed over is all that comes of the operations so far, whatever is done from now on. -/
def Settled (defers : α → Bool) (window : Nat) (punctual : Punctual α β) : Prop :=
  ∀ future : List (Timed α β), (∀ entry ∈ future, punctual.now ≤ entry.time) →
    handovers defers window [] punctual.timeline future = punctual.handed

/-- A value waits that was pushed after some operations and at some time; what came of those operations
was handed over. -/
structure Awaiting (defers : α → Bool) (window : Nat) (punctual : Punctual α β)
    (earlier : List (Timed α β)) (time : Nat) (value : α) (since : List (Timed α β)) : Prop where
  timeline : punctual.timeline = earlier ++ ⟨time, .push value⟩ :: since
  deferred : defers value = true
  quiet : ∀ entry ∈ since, entry.operation.supersedes = false
  pending : punctual.debouncer.pending = some value
  last : punctual.debouncer.deadlines.getLast? =
    some ⟨punctual.debouncer.generation, time + window⟩
  handed : ∀ future : List (Timed α β), (∀ entry ∈ future, time ≤ entry.time) →
    handovers defers window [] earlier (⟨time, .push value⟩ :: future) = punctual.handed

/-- What may still come of the operations so far. -/
inductive Outlook (defers : α → Bool) (window : Nat) (punctual : Punctual α β) : Prop
  | dropped (dropped : punctual.isOpen = false) (settled : punctual.Settled defers window)
      (clear : punctual.runs = true →
        ∀ deadline ∈ punctual.debouncer.deadlines, deadline.due ≠ punctual.now)
  | nothing (isOpen : punctual.isOpen = true) (settled : punctual.Settled defers window)
      (unpending : punctual.debouncer.pending = none)
      (elapsed : waits defers window punctual.timeline punctual.now = false)
  | waiting (isOpen : punctual.isOpen = true) {earlier : List (Timed α β)} {time : Nat} {value : α}
      {since : List (Timed α β)}
      (awaiting : punctual.Awaiting defers window earlier time value since)

/-- Every deadline under way is that of a push, none is missed, and one that is due now is the last. -/
structure OnTime (defers : α → Bool) (window : Nat) (punctual : Punctual α β) : Prop where
  made : ∀ deadline ∈ punctual.debouncer.deadlines, ∃ entry ∈ punctual.timeline,
    ∃ value ∈ entry.operation.pushed?, defers value = true ∧ deadline.due = entry.time + window
  ahead : ∀ deadline ∈ punctual.debouncer.deadlines, punctual.now ≤ deadline.due
  taken : ∀ deadline ∈ punctual.debouncer.expired, deadline.due ≤ punctual.now
  alone : punctual.debouncer.deadlines.Pairwise fun earlier _ => earlier.due ≠ punctual.now

/-- What has come of the operations so far is what the timeline says. -/
structure Follows (defers : α → Bool) (window : Nat) (punctual : Punctual α β) : Prop where
  settings : punctual.debouncer.defers = defers ∧ punctual.debouncer.window = window
  listener : punctual.debouncer.listener = listening punctual.timeline
  past : ∀ entry ∈ punctual.timeline, entry.time ≤ punctual.now
  told : ∀ told ∈ punctual.handed, told.1 ≤ punctual.now
  answered : punctual.answers = Debouncing.answers defers window [] punctual.timeline
  running : punctual.isOpen = true → punctual.runs = true
  timer : punctual.runs = true → punctual.OnTime defers window
  outlook : punctual.Outlook defers window

variable {defers : α → Bool} {window : Nat} {punctual : Punctual α β}

theorem start_follows : (start defers window : Punctual α β).Follows defers window where
  settings := ⟨rfl, rfl⟩
  listener := rfl
  past := by simp [start]
  told := by simp [start]
  answered := rfl
  running := fun _ => rfl
  timer := fun _ => ⟨by simp [start, Debouncer.start, Debouncer.deadlines],
    by simp [start, Debouncer.start, Debouncer.deadlines], by simp [start, Debouncer.start], .nil⟩
  outlook := .nothing rfl (fun _ _ => rfl) rfl rfl

/-! ## A value that waits -/

namespace Awaiting

variable {earlier since : List (Timed α β)} {time : Nat} {value : α}
  (awaiting : punctual.Awaiting defers window earlier time value since)
include awaiting

theorem unpushed : ∀ entry ∈ since, entry.operation.pushed? = none :=
  fun entry member => Operation.pushed?_eq_none (awaiting.quiet entry member)

/-- All that is open is what comes of the value. -/
theorem handovers_eq (lawful : Lawful defers window punctual.timeline) {future : List (Timed α β)}
    (later : ∀ entry ∈ future, time ≤ entry.time) :
    handovers defers window [] punctual.timeline future = punctual.handed ++
      ((⟨time, .push value⟩ : Timed α β).handover? defers window earlier (since ++ future)).toList := by
  have ordered := lawful.ordered
  rw [awaiting.timeline, List.pairwise_append, List.pairwise_cons] at ordered
  have after : ∀ entry ∈ since ++ future, time ≤ entry.time := fun entry member =>
    (List.mem_append.1 member).elim (ordered.2.1.1 entry) (later entry)
  rw [awaiting.timeline, handovers_append, List.cons_append, awaiting.handed _ after,
    List.nil_append, handovers, handovers_eq_nil awaiting.unpushed, List.append_nil]

theorem handovers_superseded (lawful : Lawful defers window punctual.timeline) {entry : Timed α β}
    (late : time ≤ entry.time) (early : entry.time < time + window)
    (supersedes : entry.operation.supersedes = true) {future : List (Timed α β)}
    (later : ∀ other ∈ future, entry.time ≤ other.time) :
    handovers defers window [] punctual.timeline (entry :: future) = punctual.handed := by
  have after : ∀ other ∈ entry :: future, time ≤ other.time :=
    List.forall_mem_cons.2 ⟨late, fun other member => Nat.le_trans late (later other member)⟩
  have member : entry ∈ since ++ entry :: future := List.mem_append_right since List.mem_cons_self
  rw [awaiting.handovers_eq lawful after,
    handover?_superseded awaiting.deferred member early supersedes, Option.toList_none,
    List.append_nil]

theorem handovers_elapsed (lawful : Lawful defers window punctual.timeline)
    (past : ∀ entry ∈ punctual.timeline, entry.time ≤ time + window) {future : List (Timed α β)}
    (later : ∀ entry ∈ future, time + window ≤ entry.time) :
    handovers defers window [] punctual.timeline future = punctual.handed ++
      ((listening punctual.timeline).map fun listener =>
        (time + window, ⟨listener, value⟩)).toList := by
  have apart := lawful.apart
  rw [awaiting.timeline] at past apart
  have early : ∀ entry ∈ since, entry.time < time + window := fun entry member =>
    Nat.lt_of_le_of_ne (past entry (List.mem_append_right _ (List.mem_cons_of_mem _ member)))
      (List.rel_of_pairwise_cons (List.pairwise_append.1 apart).2.1 member value rfl awaiting.deferred)
  rw [awaiting.handovers_eq lawful fun entry member =>
      Nat.le_trans (Nat.le_add_right _ _) (later entry member),
    handover?_elapsed awaiting.deferred early awaiting.quiet later, awaiting.timeline, listening_skip]

theorem waits_eq (now : Nat) :
    waits defers window punctual.timeline now = decide (now < time + window) := by
  rw [awaiting.timeline, ← List.singleton_append, ← List.append_assoc,
    waits_append awaiting.unpushed, waits_push, awaiting.deferred, Bool.true_and]

/-- The window of a value that waits is not over, unless it is over just now. -/
theorem early (onTime : punctual.OnTime defers window)
    (clear : ∀ deadline ∈ punctual.debouncer.deadlines, deadline.due ≠ punctual.now) :
    punctual.now < time + window :=
  have member := List.mem_of_getLast? awaiting.last
  Nat.lt_of_le_of_ne (onTime.ahead _ member) (clear _ member).symm

end Awaiting

/-! ## Operations -/

/-- No deadline is due at the time of an operation. -/
theorem OnTime.clear (onTime : punctual.OnTime defers window) {operation : Operation α β}
    (lawful : Lawful defers window (punctual.timeline ++ [⟨punctual.now, operation⟩])) :
    ∀ deadline ∈ punctual.debouncer.deadlines, deadline.due ≠ punctual.now := by
  intro deadline member same
  obtain ⟨entry, done, value, push, deferred, due⟩ := onTime.made deadline member
  have apart := (List.pairwise_append.1 lawful.apart).2.2 entry done _ List.mem_cons_self value push
    deferred
  exact apart (same.symm.trans due)

theorem OnTime.of_sublist (onTime : punctual.OnTime defers window) {later : Punctual α β}
    (now : later.now = punctual.now) (grown : punctual.timeline ⊆ later.timeline)
    (fewer : later.debouncer.deadlines.Sublist punctual.debouncer.deadlines)
    (taken : ∀ deadline ∈ later.debouncer.expired, deadline.due ≤ punctual.now) :
    later.OnTime defers window where
  made := fun deadline member =>
    (onTime.made deadline (fewer.subset member)).imp fun _ => And.imp_left fun done => grown done
  ahead := fun deadline member => now ▸ onTime.ahead deadline (fewer.subset member)
  taken := now ▸ taken
  alone := now ▸ onTime.alone.sublist fewer

/-- A deadline is taken just when it is due. -/
theorem OnTime.due_eq (onTime : punctual.OnTime defers window) {deadline : Deadline}
    (taken : punctual.debouncer.expired = some deadline) : deadline.due = punctual.now := by
  refine Nat.le_antisymm (onTime.taken deadline taken) (onTime.ahead deadline ?_)
  simp [Debouncer.deadlines, taken]

namespace Follows

variable (follows : punctual.Follows defers window)
include follows

/-- Asking tells whether a value waits by the timeline. -/
theorem isWaiting_eq (isOpen : punctual.isOpen = true)
    (clear : ∀ deadline ∈ punctual.debouncer.deadlines, deadline.due ≠ punctual.now) :
    punctual.debouncer.isWaiting = waits defers window punctual.timeline punctual.now := by
  cases follows.outlook with
  | dropped dropped => cases isOpen.symm.trans dropped
  | nothing _ _ unpending elapsed => rw [elapsed, Debouncer.isWaiting, unpending, Option.isSome_none]
  | waiting _ awaiting =>
      have early := awaiting.early (follows.timer (follows.running isOpen)) clear
      rw [awaiting.waits_eq, Debouncer.isWaiting, awaiting.pending, decide_eq_true early,
        Option.isSome_some]

/-- By an operation that gives up what waits, all before it is settled. -/
theorem settled_before {operation : Operation α β} (isOpen : punctual.isOpen = true)
    (supersedes : operation.supersedes = true)
    (lawful : Lawful defers window (punctual.timeline ++ [⟨punctual.now, operation⟩]))
    {future : List (Timed α β)} (later : ∀ entry ∈ future, punctual.now ≤ entry.time) :
    handovers defers window [] punctual.timeline (⟨punctual.now, operation⟩ :: future) =
      punctual.handed := by
  cases follows.outlook with
  | dropped dropped => cases isOpen.symm.trans dropped
  | nothing _ settled => exact settled _ (List.forall_mem_cons.2 ⟨Nat.le_refl _, later⟩)
  | @waiting _ earlier time value since awaiting =>
      have onTime := follows.timer (follows.running isOpen)
      have began : time ≤ punctual.now := follows.past ⟨time, .push value⟩ (by
        rw [awaiting.timeline]
        exact List.mem_append_right _ List.mem_cons_self)
      exact awaiting.handovers_superseded lawful.of_append began
        (awaiting.early onTime (onTime.clear lawful)) supersedes later

/-- What a push leaves to come. -/
theorem outlook_push (value : α) (isOpen : punctual.isOpen = true)
    (lawful : Lawful defers window (punctual.timeline ++ [⟨punctual.now, .push value⟩])) :
    (punctual.operate (.push value)).Outlook defers window := by
  have before : ∀ future : List (Timed α β), (∀ entry ∈ future, punctual.now ≤ entry.time) →
      handovers defers window [] punctual.timeline (⟨punctual.now, .push value⟩ :: future) =
        punctual.handed := fun _ later => follows.settled_before isOpen rfl lawful later
  have listener := follows.listener
  obtain ⟨rfl, rfl⟩ := follows.settings
  by_cases deferred : punctual.debouncer.defers value = true
  · have queued := punctual.debouncer.push_of_deferred deferred punctual.now
    have awaiting : (punctual.operate (.push value)).Awaiting punctual.debouncer.defers
        punctual.debouncer.window punctual.timeline punctual.now value [] := by
      refine ⟨rfl, deferred, fun _ none => (by cases none), ?_, ?_, fun future later => ?_⟩
      · simp only [operate, Operation.act, queued]
      · simp only [operate, Operation.act, queued, Debouncer.deadlines, ← List.append_assoc,
          List.getLast?_concat]
      · simp only [operate, Operation.act, queued, Option.map_none, Option.toList_none,
          List.append_nil]
        exact before future later
    exact .waiting isOpen awaiting
  · have undeferred : punctual.debouncer.defers value = false := Bool.not_eq_true _ ▸ deferred
    have passed := punctual.debouncer.push_of_undeferred undeferred punctual.now
    refine .nothing isOpen (fun future later => ?_) ?_ ?_
    · simp only [operate, Operation.act, passed, handovers_concat, handover?_undeferred undeferred,
        before future later, List.nil_append, ← listener, Debouncer.deliver, Option.map_map]
      rfl
    · simp only [operate, Operation.act, passed]
    · simp only [operate, waits_push, undeferred, Bool.false_and]

/-- What a drop leaves to come. -/
theorem outlook_drop (isOpen : punctual.isOpen = true)
    (lawful : Lawful defers window (punctual.timeline ++ [⟨punctual.now, .drop⟩])) :
    (punctual.operate .drop).Outlook defers window := by
  have clear := (follows.timer (follows.running isOpen)).clear lawful
  refine .dropped rfl (fun future later => ?_) fun _ => clear
  have unpushed : (⟨punctual.now, .drop⟩ : Timed α β).operation.pushed? = none := rfl
  simpa only [operate, handovers_concat_unpushed unpushed, Operation.act, Option.map_none,
    Option.toList_none, List.append_nil] using follows.settled_before isOpen rfl lawful later

/-- What another operation leaves to come. -/
theorem outlook_quiet {operation : Operation α β} (quiet : operation.supersedes = false)
    (isOpen : punctual.isOpen = true) : (punctual.operate operation).Outlook defers window := by
  have unpushed := Operation.pushed?_eq_none quiet
  obtain ⟨answers, operated⟩ := punctual.operate_of_quiet quiet
  cases follows.outlook with
  | dropped dropped => cases isOpen.symm.trans dropped
  | nothing _ settled unpending elapsed =>
      rw [operated]
      refine .nothing isOpen (fun future later => ?_) unpending ?_
      · exact (handovers_concat_unpushed unpushed _ _ _).trans
          (settled _ (List.forall_mem_cons.2 ⟨Nat.le_refl _, later⟩))
      · exact (waits_append (List.forall_mem_singleton.2 unpushed) _ _).trans elapsed
  | @waiting _ earlier time value since awaiting =>
      have next : (punctual.operate operation).Awaiting defers window earlier time value
          (since ++ [⟨punctual.now, operation⟩]) := by
        rw [operated]
        refine ⟨?_, awaiting.deferred, ?_, awaiting.pending, awaiting.last, awaiting.handed⟩
        · simp only [awaiting.timeline, List.append_assoc, List.cons_append]
        · exact List.forall_mem_append.2 ⟨awaiting.quiet, List.forall_mem_singleton.2 quiet⟩
      exact .waiting (operated ▸ isOpen) next

/-- An operation sends the timer nothing but the deadline of a value that is deferred. -/
theorem onTime_operate (operation : Operation α β) (isOpen : punctual.isOpen = true)
    (lawful : Lawful defers window (punctual.timeline ++ [⟨punctual.now, operation⟩])) :
    (punctual.operate operation).OnTime defers window := by
  have onTime := follows.timer (follows.running isOpen)
  have clear := onTime.clear lawful
  have grown : punctual.timeline ⊆ (punctual.operate operation).timeline :=
    List.subset_append_left _ _
  cases operation with
  | push value =>
      obtain ⟨rfl, rfl⟩ := follows.settings
      by_cases deferred : punctual.debouncer.defers value = true
      · have queued : (punctual.operate (.push value)).debouncer.deadlines =
            punctual.debouncer.deadlines ++ [⟨punctual.debouncer.generation + 1,
              punctual.now + punctual.debouncer.window⟩] := by
          simp only [operate, Operation.act, punctual.debouncer.push_of_deferred deferred,
            Debouncer.deadlines, List.append_assoc]
        have untouched : (punctual.operate (.push value)).debouncer.expired =
            punctual.debouncer.expired := by
          simp only [operate, Operation.act, punctual.debouncer.push_of_deferred deferred]
        refine ⟨?_, ?_, untouched ▸ onTime.taken, ?_⟩ <;> rw [queued]
        · refine List.forall_mem_append.2 ⟨fun deadline member => ?_, List.forall_mem_singleton.2
            ⟨_, List.mem_append_right _ List.mem_cons_self, value, rfl, deferred, rfl⟩⟩
          obtain ⟨entry, done, made⟩ := onTime.made deadline member
          exact ⟨entry, grown done, made⟩
        · exact List.forall_mem_append.2 ⟨onTime.ahead, List.forall_mem_singleton.2
            (Nat.le_add_right _ _)⟩
        · exact List.pairwise_append.2 ⟨onTime.alone, List.pairwise_singleton _ _,
            fun earlier member _ _ => clear earlier member⟩
      · have undeferred : punctual.debouncer.defers value = false := Bool.not_eq_true _ ▸ deferred
        have passed : (punctual.operate (.push value)).debouncer = { punctual.debouncer with
            generation := punctual.debouncer.generation + 1, pending := none } := by
          simp only [operate, Operation.act, punctual.debouncer.push_of_undeferred undeferred]
        exact onTime.of_sublist rfl grown (passed ▸ .refl _) (passed ▸ onTime.taken)
  | attach | detach | ask | drop => exact onTime.of_sublist rfl grown (.refl _) onTime.taken

/-- An operation keeps the invariant. -/
theorem operate (operation : Operation α β) (isOpen : punctual.isOpen = true)
    (lawful : Lawful defers window (punctual.timeline ++ [⟨punctual.now, operation⟩])) :
    (punctual.operate operation).Follows defers window := by
  have clear := (follows.timer (follows.running isOpen)).clear lawful
  obtain ⟨defers', window', listener⟩ :=
    operation.settings_act punctual.debouncer punctual.now
  refine ⟨⟨defers'.trans follows.settings.1, window'.trans follows.settings.2⟩, ?_, ?_, ?_, ?_,
    fun _ => follows.running isOpen, fun _ => follows.onTime_operate operation isOpen lawful, ?_⟩
  · rw [follows.listener] at listener
    exact listener.trans (listening_concat punctual.timeline ⟨punctual.now, operation⟩).symm
  · exact List.forall_mem_append.2 ⟨follows.past, List.forall_mem_singleton.2 (Nat.le_refl _)⟩
  · refine List.forall_mem_append.2 ⟨follows.told, fun told member => ?_⟩
    obtain ⟨delivery, -, rfl⟩ := Option.map_eq_some_iff.1 (Option.mem_toList.1 member)
    exact Nat.le_refl _
  · have asked := follows.isWaiting_eq isOpen clear
    refine .trans ?_ (answers_concat [] punctual.timeline ⟨punctual.now, operation⟩).symm
    rw [List.nil_append, ← follows.answered]
    cases operation with
    | ask => simp only [Punctual.operate, Debouncing.answers, asked, List.append_nil]
    | push | attach | detach | drop => rfl
  · cases operation with
    | push value => exact follows.outlook_push value isOpen lawful
    | drop => exact follows.outlook_drop isOpen lawful
    | attach | detach | ask => exact follows.outlook_quiet rfl isOpen

/-! ## The timer and the clock -/

/-- The timer leaves what waits alone, as long as it keeps the last deadline under way. -/
theorem keep {debouncer : Debouncer α β} (runs : punctual.runs = true)
    (settings : debouncer.defers = punctual.debouncer.defers ∧
      debouncer.window = punctual.debouncer.window)
    (listener : debouncer.listener = punctual.debouncer.listener)
    (generation : debouncer.generation = punctual.debouncer.generation)
    (pending : debouncer.pending = punctual.debouncer.pending)
    (fewer : debouncer.deadlines.Sublist punctual.debouncer.deadlines)
    (taken : ∀ deadline ∈ debouncer.expired, deadline.due ≤ punctual.now)
    (last : ∀ {earlier time value since}, punctual.Awaiting defers window earlier time value since →
      debouncer.deadlines.getLast? = punctual.debouncer.deadlines.getLast?) :
    ({ punctual with debouncer := debouncer } : Punctual α β).Follows defers window where
  settings := ⟨settings.1.trans follows.settings.1, settings.2.trans follows.settings.2⟩
  listener := listener.trans follows.listener
  past := follows.past
  told := follows.told
  answered := follows.answered
  running := follows.running
  timer := fun _ => (follows.timer runs).of_sublist rfl (List.Subset.refl _) fewer taken
  outlook := by
    cases follows.outlook with
    | dropped dropped settled clear =>
        exact .dropped dropped settled fun _ deadline member =>
          clear runs deadline (fewer.subset member)
    | nothing isOpen settled unpending elapsed =>
        exact .nothing isOpen settled (pending.trans unpending) elapsed
    | waiting isOpen awaiting =>
        refine .waiting isOpen ⟨awaiting.timeline, awaiting.deferred, awaiting.quiet,
          pending.trans awaiting.pending, ?_, awaiting.handed⟩
        exact (last awaiting).trans (generation ▸ awaiting.last)

theorem receive (runs : punctual.runs = true) : punctual.receive.Follows defers window := by
  obtain ⟨fewer, last⟩ := punctual.debouncer.deadlines_receive
  rcases punctual.debouncer.receive_cases with same | ⟨deadline, rest, untaken, -, received⟩
  · rw [Punctual.receive, same]
    exact follows
  · rw [received] at fewer last
    rw [Punctual.receive, received]
    exact follows.keep runs ⟨rfl, rfl⟩ rfl rfl rfl fewer (follows.timer runs).taken fun _ => last

theorem expire (runs : punctual.runs = true) : punctual.expire.Follows defers window := by
  have kept := punctual.debouncer.deadlines_expire punctual.now
  rcases punctual.debouncer.expire_cases punctual.now with same | ⟨deadline, -, -, due, expired⟩
  · rw [Punctual.expire, same]
    exact follows
  · rw [expired] at kept
    rw [Punctual.expire, expired]
    exact follows.keep runs ⟨rfl, rfl⟩ rfl rfl rfl (kept ▸ .refl _) (by simpa using due)
      fun _ => kept ▸ rfl

/-- While a value waits, a deadline that is taken is its own. -/
theorem eq_of_taken (runs : punctual.runs = true) {deadline : Deadline}
    (taken : punctual.debouncer.expired = some deadline) {earlier since : List (Timed α β)}
    {time : Nat} {value : α} (awaiting : punctual.Awaiting defers window earlier time value since) :
    deadline = ⟨punctual.debouncer.generation, time + window⟩ := by
  have onTime := follows.timer runs
  have under : punctual.debouncer.deadlines = deadline ::
      (punctual.debouncer.held.toList ++ punctual.debouncer.sent) := by
    simp [Debouncer.deadlines, taken]
  have last := awaiting.last
  have alone := onTime.alone
  rw [under] at last alone
  cases rest : punctual.debouncer.held.toList ++ punctual.debouncer.sent with
  | nil =>
      rw [rest] at last
      exact Option.some.inj last
  | cons other others =>
      -- A deadline that is due now would be followed by none.
      rw [rest] at alone
      exact absurd (onTime.due_eq taken) (List.rel_of_pairwise_cons alone List.mem_cons_self)

/-- The deadline of a value that waits hands it over, and no other deadline does anything. -/
theorem fire (runs : punctual.runs = true)
    (lawful : Lawful defers window punctual.timeline) : punctual.fire.Follows defers window := by
  have onTime := follows.timer runs
  have fewer : ∀ pending, ({ punctual.debouncer with expired := none, pending := pending } :
      Debouncer α β).deadlines.Sublist punctual.debouncer.deadlines := fun pending => by
    simp [Debouncer.deadlines]
  rcases punctual.debouncer.fire_cases with
    ⟨-, fired⟩ | ⟨deadline, taken, ⟨current, value, pending, fired⟩ | ⟨stale, fired⟩⟩
  · have same : punctual.fire = punctual := by simp [Punctual.fire, fired]
    rwa [same]
  · cases follows.outlook with
    | dropped _ _ clear =>
        refine absurd (onTime.due_eq taken) (clear runs deadline ?_)
        simp [Debouncer.deadlines, taken]
    | nothing _ _ unpending => cases unpending.symm.trans pending
    | @waiting isOpen earlier time value' since awaiting =>
        obtain rfl := Option.some.inj (pending.symm.trans awaiting.pending)
        have elapsed : punctual.now = time + window := by
          rw [← onTime.due_eq taken, follows.eq_of_taken runs taken awaiting]
        have handed : punctual.fire = { punctual with
            debouncer := { punctual.debouncer with expired := none, pending := none }
            handed := punctual.handed ++ ((listening punctual.timeline).map fun listener =>
              (punctual.now, ⟨listener, value⟩)).toList } := by
          simp only [Punctual.fire, fired, Debouncer.deliver, ← follows.listener, Option.map_map]
          rfl
        rw [handed]
        refine ⟨follows.settings, follows.listener, follows.past, ?_, follows.answered,
          follows.running, fun _ => onTime.of_sublist rfl (List.Subset.refl _) (fewer none)
            fun _ none => (by cases none),
          .nothing isOpen (fun future later => ?_) rfl ?_⟩
        · refine List.forall_mem_append.2 ⟨follows.told, fun told member => ?_⟩
          obtain ⟨listener, -, rfl⟩ := Option.map_eq_some_iff.1 (Option.mem_toList.1 member)
          exact Nat.le_refl _
        · rw [elapsed]
          exact awaiting.handovers_elapsed lawful (elapsed ▸ follows.past) (elapsed ▸ later)
        · simp [awaiting.waits_eq, elapsed]
  · have same : punctual.fire = { punctual with debouncer := { punctual.debouncer with
        expired := none } } := by simp [Punctual.fire, fired]
    rw [same]
    refine follows.keep runs ⟨rfl, rfl⟩ rfl rfl rfl (fewer _) (fun _ none => by cases none)
      fun awaiting => ?_
    have own := follows.eq_of_taken runs taken awaiting
    cases (stale (own ▸ rfl)).symm.trans awaiting.pending

/-- Time passes only until the next deadline. -/
theorem wait {milliseconds : Nat} (rests : punctual.Rests (punctual.now + milliseconds)) :
    ({ punctual with now := punctual.now + milliseconds } : Punctual α β).Follows defers window := by
  have settled : punctual.Settled defers window →
      ({ punctual with now := punctual.now + milliseconds } : Punctual α β).Settled defers window :=
    fun settled future later => settled future fun entry member =>
      Nat.le_trans (Nat.le_add_right _ _) (later entry member)
  refine ⟨follows.settings, follows.listener,
    fun entry member => Nat.le_add_right_of_le (follows.past entry member),
    fun told member => Nat.le_add_right_of_le (follows.told told member), follows.answered,
    follows.running, fun runs => ?_, ?_⟩
  · obtain ⟨-, received, untaken, ahead⟩ := rests runs
    have held : punctual.debouncer.deadlines = punctual.debouncer.held.toList := by
      simp [Debouncer.deadlines, received, untaken]
    refine ⟨(follows.timer runs).made, ?_, ?_, ?_⟩ <;> dsimp only
    · rw [held]
      exact fun deadline member => ahead deadline (Option.mem_toList.1 member)
    · rw [untaken]
      exact fun _ none => by cases none
    · rw [held]
      cases punctual.debouncer.held with
      | none => exact .nil
      | some deadline => exact List.pairwise_singleton _ _
  · cases follows.outlook with
    | dropped dropped past =>
        refine .dropped dropped (settled past) fun runs => ?_
        cases dropped.symm.trans (rests runs).1
    | nothing isOpen past unpending elapsed =>
        exact .nothing isOpen (settled past) unpending (waits_mono (Nat.le_add_right _ _) elapsed)
    | waiting isOpen awaiting =>
        exact .waiting isOpen ⟨awaiting.timeline, awaiting.deferred, awaiting.quiet,
          awaiting.pending, awaiting.last, awaiting.handed⟩

/-- A timer leaves only when the debouncer is dropped. -/
theorem leave (dropped : punctual.isOpen = false) :
    ({ punctual with runs := false } : Punctual α β).Follows defers window := by
  refine ⟨follows.settings, follows.listener, follows.past, follows.told, follows.answered,
    fun isOpen => (by cases dropped.symm.trans isOpen), fun none => (by cases none), ?_⟩
  cases follows.outlook with
  | dropped _ settled => exact .dropped dropped settled fun none => by cases none
  | nothing isOpen | waiting isOpen => cases dropped.symm.trans isOpen

/-- Every step keeps the invariant. -/
theorem step {next : Punctual α β} (step : Step punctual next)
    (lawful : Lawful defers window next.timeline) : next.Follows defers window := by
  cases step with
  | operate isOpen operation => exact follows.operate operation isOpen lawful
  | receive runs => exact follows.receive runs
  | expire runs => exact follows.expire runs
  | fire runs => exact follows.fire runs lawful
  | leave _ dropped => exact follows.leave dropped
  | wait _ rests => exact follows.wait rests

end Follows

/-- The timeline only grows. -/
theorem Step.exists_timeline {next : Punctual α β} (step : Step punctual next) :
    ∃ since, next.timeline = punctual.timeline ++ since := by
  cases step with
  | operate isOpen operation => exact ⟨[⟨punctual.now, operation⟩], rfl⟩
  | receive | expire | fire | leave | wait => exact ⟨[], (List.append_nil _).symm⟩

/-- Every run over a lawful timeline keeps the invariant. -/
theorem Reach.follows (reach : (start defers window).Reach punctual)
    (lawful : Lawful defers window punctual.timeline) : punctual.Follows defers window := by
  induction reach with
  | refl => exact start_follows
  | tail _ step ih =>
      obtain ⟨since, timeline⟩ := step.exists_timeline
      exact (ih (timeline ▸ lawful).of_append).step step lawful

/-! ## A timer that has caught up -/

/-- No deadline under way is due yet. -/
theorem CaughtUp.ahead (caughtUp : punctual.CaughtUp) (runs : punctual.runs = true) :
    ∀ deadline ∈ punctual.debouncer.deadlines, punctual.now < deadline.due := by
  obtain ⟨-, received, untaken, ahead⟩ := caughtUp runs
  intro deadline member
  rw [Debouncer.deadlines, received, untaken, Option.toList_none, List.nil_append,
    List.append_nil] at member
  exact ahead deadline (Option.mem_toList.1 member)

/-- What is due by now was handed over, and nothing else. -/
theorem Follows.handed_eq (follows : punctual.Follows defers window)
    (lawful : Lawful defers window punctual.timeline) (caughtUp : punctual.CaughtUp) :
    punctual.handed = (handovers defers window [] punctual.timeline []).filter fun told =>
      told.1 ≤ punctual.now := by
  have told : punctual.handed.filter (fun told => told.1 ≤ punctual.now) = punctual.handed :=
    List.filter_eq_self.2 fun told member => decide_eq_true (follows.told told member)
  cases follows.outlook with
  | dropped _ settled | nothing _ settled =>
      rw [settled [] (List.forall_mem_nil _), told]
  | @waiting isOpen earlier time value since awaiting =>
      have early : punctual.now < time + window :=
        caughtUp.ahead (follows.running isOpen) _ (List.mem_of_getLast? awaiting.last)
      have unopened : ((⟨time, .push value⟩ : Timed α β).handover? defers window earlier
          (since ++ [])).toList.filter (fun told => told.1 ≤ punctual.now) = [] := by
        refine List.filter_eq_nil_iff.2 fun told member => ?_
        rw [time_of_handover? awaiting.deferred (Option.mem_toList.1 member)]
        simpa using early
      rw [awaiting.handovers_eq lawful (List.forall_mem_nil _), List.filter_append, told, unopened,
        List.append_nil]

end Punctual

/-- A debouncer whose timer is on time does what the timeline says. Every timeline that can be is
carried out, to any time after it. However the steps of the timer come between the operations of one
instant, by the time when the timer has caught up, what the timeline says is due was handed over, then
and to that listener, and nothing else; each asker was told whether a value waits; and while the
debouncer is not dropped, asking it tells so still. -/
theorem keeps_to_timeline {defers : α → Bool} {window : Nat} {timeline : List (Timed α β)}
    (lawful : Lawful defers window timeline) :
    (∀ horizon, (∀ entry ∈ timeline, entry.time ≤ horizon) →
      ∃ final, (Punctual.start defers window).Reach final ∧ final.CaughtUp ∧ final.now = horizon ∧
        final.timeline = timeline) ∧
    ∀ final, (Punctual.start defers window).Reach final → final.CaughtUp →
      final.timeline = timeline →
      final.handed = (handovers defers window [] timeline []).filter (fun told =>
          told.1 ≤ final.now) ∧
        final.answers = answers defers window [] timeline ∧
        (final.isOpen = true →
          final.debouncer.isWaiting = waits defers window timeline final.now) := by
  refine ⟨fun horizon past => lawful.exists_reach past, fun final reach caughtUp same => ?_⟩
  subst same
  have follows := reach.follows lawful
  refine ⟨follows.handed_eq lawful caughtUp, follows.answered, fun isOpen => ?_⟩
  exact follows.isWaiting_eq isOpen fun deadline member =>
    (Nat.ne_of_lt (caughtUp.ahead (follows.running isOpen) deadline member)).symm

/-- Zeros are deferred. One is superseded, one is handed over to a listener that came after it, and one
is dropped. -/
def busyAfternoon : List (Timed Nat String) :=
  [⟨0, .attach "panel"⟩, ⟨0, .push 0⟩, ⟨5, .push 7⟩, ⟨6, .push 0⟩, ⟨10, .attach "log"⟩, ⟨12, .ask⟩,
    ⟨30, .ask⟩, ⟨31, .push 0⟩, ⟨40, .drop⟩]

/-- What becomes of the zeros. -/
theorem busyAfternoon_handed :
    Lawful (· == 0) 20 busyAfternoon ∧
      ∃ final, (Punctual.start (· == 0) 20).Reach final ∧ final.timeline = busyAfternoon ∧
        final.handed = [(5, ⟨"panel", 7⟩), (26, ⟨"log", 0⟩)] ∧
        final.answers = [(12, true), (30, false)] := by
  have lawful : Lawful (· == 0) 20 busyAfternoon := ⟨by decide, by decide, by decide⟩
  obtain ⟨carriedOut, told⟩ := keeps_to_timeline lawful
  obtain ⟨final, reach, caughtUp, now, timeline⟩ := carriedOut 100 (by decide)
  obtain ⟨handed, answered, -⟩ := told final reach caughtUp timeline
  rw [now] at handed
  exact ⟨lawful, final, reach, timeline, handed, answered⟩

end RenderFarm.Debouncing
