import Mathlib.Algebra.GroupWithZero.Nat
import Mathlib.Data.List.Induction
import RenderFarm.Proofs.Debouncer.Moves

/-!
# Deadlines that are never lost

The deadlines under way are those that the timer has taken, holds, or is still to receive, in the
order of the pushes that made them. A value that waits has the last of them, whatever the timer has
dropped or is late with (`Faithful`). So what the timer hands over is the value of the latest push,
when its window is over and not again, and a timer that goes on hands it over
(`handed_over_once_in_time`).
-/

namespace RenderFarm

variable {α β : Type}

namespace Debouncer

/-! ## Deadlines under way -/

/-- The deadlines under way, the oldest first. -/
def deadlines (debouncer : Debouncer α β) : List Deadline :=
  debouncer.expired.toList ++ debouncer.held.toList ++ debouncer.sent

/-- A value that is deferred sends its deadline to the timer. -/
theorem push_of_deferred (debouncer : Debouncer α β) {value : α}
    (deferred : debouncer.defers value = true) (now : Nat) :
    debouncer.push now value =
      ({ debouncer with
          generation := debouncer.generation + 1
          pending := some value
          sent := debouncer.sent ++ [⟨debouncer.generation + 1, now + debouncer.window⟩] },
        none) := by
  simp only [push, deferred, if_true]

/-- A value that is not deferred supersedes what waits. -/
theorem push_of_undeferred (debouncer : Debouncer α β) {value : α}
    (undeferred : debouncer.defers value = false) (now : Nat) :
    debouncer.push now value =
      ({ debouncer with generation := debouncer.generation + 1, pending := none },
        debouncer.deliver value) := by
  simp only [push, undeferred, if_false, Bool.false_eq_true]
  rfl

/-- A deadline that is received replaces the one held. -/
theorem receive_cases (debouncer : Debouncer α β) :
    debouncer.receive = debouncer ∨
      ∃ deadline rest, debouncer.expired = none ∧ debouncer.sent = deadline :: rest ∧
        debouncer.receive = { debouncer with sent := rest, held := some deadline } := by
  cases taken : debouncer.expired with
  | some deadline => exact .inl (by simp only [receive, taken])
  | none =>
      cases queue : debouncer.sent with
      | nil => exact .inl (by simp only [receive, taken, queue])
      | cons deadline rest =>
          exact .inr ⟨deadline, rest, rfl, rfl, by simp only [receive, taken, queue]⟩

/-- A deadline is taken when it is due. -/
theorem expire_cases (debouncer : Debouncer α β) (now : Nat) :
    debouncer.expire now = debouncer ∨
      ∃ deadline, debouncer.expired = none ∧ debouncer.held = some deadline ∧ deadline.due ≤ now ∧
        debouncer.expire now = { debouncer with held := none, expired := some deadline } := by
  cases taken : debouncer.expired with
  | some deadline => exact .inl (by simp only [expire, taken])
  | none =>
      cases holds : debouncer.held with
      | none => exact .inl (by simp only [expire, taken, holds])
      | some deadline =>
          by_cases due : deadline.due ≤ now
          · exact .inr ⟨deadline, rfl, rfl, due, by simp only [expire, taken, holds, if_pos due]⟩
          · exact .inl (by simp only [expire, taken, holds, if_neg due])

/-- Only the deadline of the latest push hands over what waits. -/
theorem fire_cases (debouncer : Debouncer α β) :
    debouncer.expired = none ∧ debouncer.fire = (debouncer, none) ∨
      ∃ deadline, debouncer.expired = some deadline ∧
        ((debouncer.generation = deadline.generation ∧ ∃ value, debouncer.pending = some value ∧
            debouncer.fire =
              ({ debouncer with expired := none, pending := none }, debouncer.deliver value)) ∨
          ((debouncer.generation = deadline.generation → debouncer.pending = none) ∧
            debouncer.fire = ({ debouncer with expired := none }, none))) := by
  cases taken : debouncer.expired with
  | none => exact .inl ⟨rfl, by simp only [fire, taken]⟩
  | some deadline =>
      refine .inr ⟨deadline, rfl, ?_⟩
      by_cases current : debouncer.generation = deadline.generation
      · cases waiting : debouncer.pending with
        | none => exact .inr ⟨fun _ => rfl, by simp only [fire, taken, if_pos current, waiting]⟩
        | some value =>
            refine .inl ⟨current, value, rfl, ?_⟩
            simp only [fire, taken, if_pos current, waiting]
            rfl
      · exact .inr ⟨fun same => absurd same current, by simp only [fire, taken, if_neg current]⟩

/-- A fire leaves the deadlines that the timer has not taken. -/
theorem fire_fst (debouncer : Debouncer α β) :
    ∃ pending, debouncer.fire.1 = { debouncer with expired := none, pending := pending } := by
  rcases debouncer.fire_cases with
    ⟨untaken, fired⟩ | ⟨_, _, ⟨-, _, -, fired⟩ | ⟨-, fired⟩⟩
  · exact ⟨debouncer.pending, by rw [fired, ← untaken]⟩
  · exact ⟨none, by rw [fired]⟩
  · exact ⟨debouncer.pending, by rw [fired]⟩

/-- Of the deadlines under way, the timer never drops the last one by receiving another. -/
theorem deadlines_receive (debouncer : Debouncer α β) :
    debouncer.receive.deadlines.Sublist debouncer.deadlines ∧
      debouncer.receive.deadlines.getLast? = debouncer.deadlines.getLast? := by
  rcases receive_cases debouncer with same | ⟨deadline, rest, taken, queue, received⟩
  · rw [same]
    exact ⟨.refl _, rfl⟩
  · have before : debouncer.deadlines = debouncer.held.toList ++ deadline :: rest := by
      simp [deadlines, taken, queue]
    have after : debouncer.receive.deadlines = deadline :: rest := by
      simp [received, deadlines, taken]
    rw [before, after]
    refine ⟨List.sublist_append_right _ _, ?_⟩
    rw [List.getLast?_append, List.getLast?_cons, Option.some_or]

theorem deadlines_expire (debouncer : Debouncer α β) (now : Nat) :
    (debouncer.expire now).deadlines = debouncer.deadlines := by
  rcases expire_cases debouncer now with same | ⟨deadline, taken, holds, -, expired⟩
  · rw [same]
  · simp [expired, deadlines, taken, holds]

end Debouncer

namespace Debouncing

/-! ## What the log awaits -/

theorem awaits_push (log : List (Entry α β)) (value : α) (time : Nat) :
    Awaits (log ++ [⟨time, .push value, none⟩]) value time :=
  ⟨log, [], rfl, by simp⟩

/-- A move that pushes nothing and hands nothing over leaves the log awaiting what it awaits. -/
theorem Awaits.append {log : List (Entry α β)} {value : α} {time : Nat}
    (awaits : Awaits log value time) {entry : Entry α β} (unpushed : entry.move.pushed? = none)
    (unhanded : entry.handed = none) : Awaits (log ++ [entry]) value time := by
  obtain ⟨earlier, since, rfl, quiet⟩ := awaits
  refine ⟨earlier, since ++ [entry], by simp, fun other member => ?_⟩
  rcases List.mem_append.1 member with before | last
  · exact quiet other before
  · rw [List.mem_singleton.1 last]
    exact ⟨unpushed, unhanded⟩

theorem pushes_append (before after : List (Move α β)) :
    pushes (before ++ after) = pushes before + pushes after := by
  simp [pushes]

/-! ## The invariant -/

/-- What the timer is about to do agrees with the log. -/
structure Faithful (defers : α → Bool) (window : Nat) (debouncing : Debouncing α β) : Prop where
  settings : debouncing.debouncer.defers = defers ∧ debouncing.debouncer.window = window
  listener : debouncing.debouncer.listener = registered debouncing.log
  counted : debouncing.debouncer.generation.toNat = pushes (debouncing.log.map Entry.move)
  ordered : debouncing.debouncer.deadlines.Pairwise fun earlier later =>
    earlier.generation < later.generation
  bounded : ∀ deadline ∈ debouncing.debouncer.deadlines,
    deadline.generation ≤ debouncing.debouncer.generation
  due : ∀ deadline ∈ debouncing.debouncer.expired, deadline.due ≤ debouncing.now
  awaited : ∀ value ∈ debouncing.debouncer.pending, defers value = true ∧
    ∃ time, Awaits debouncing.log value time ∧
      debouncing.debouncer.deadlines.getLast? =
        some ⟨debouncing.debouncer.generation, time + window⟩

/-- What a log entry hands over, as a push or as a move of the timer, given the log before it. -/
structure Entry.Sound (defers : α → Bool) (window : Nat) (before : List (Entry α β))
    (entry : Entry α β) : Prop where
  pushed : ∀ value, entry.move = .push value → entry.handed =
    if defers value then none else (registered before).map fun listener => ⟨listener, value⟩
  fired : ∀ delivery ∈ entry.handed, entry.move.pushed? = none →
    registered before = some delivery.listener ∧ defers delivery.value = true ∧
      ∃ time, Awaits before delivery.value time ∧ time + window ≤ entry.time

/-- A move that pushes nothing and hands nothing over. -/
theorem Entry.sound_of_quiet {defers : α → Bool} {window : Nat} {before : List (Entry α β)}
    {entry : Entry α β} (unpushed : entry.move.pushed? = none) (unhanded : entry.handed = none) :
    entry.Sound defers window before := by
  refine ⟨fun value push => ?_, fun delivery member => ?_⟩
  · rw [push] at unpushed
    cases unpushed
  · rw [unhanded] at member
    cases member

variable {defers : α → Bool} {window : Nat} {debouncing : Debouncing α β}

theorem start_faithful (defers : α → Bool) (window : Nat) :
    (start defers window : Debouncing α β).Faithful defers window where
  settings := ⟨rfl, rfl⟩
  listener := rfl
  counted := rfl
  ordered := .nil
  bounded := by simp [start, Debouncer.start, Debouncer.deadlines]
  due := by simp [start, Debouncer.start]
  awaited := by simp [start, Debouncer.start]

namespace Faithful

variable (faithful : debouncing.Faithful defers window)
include faithful

/-- A push has the generation after all others, and its deadline, if it makes one, is the last. -/
theorem push (value : α)
    (few : pushes (debouncing.log.map Entry.move ++ [.push value]) < 2 ^ 64) :
    (debouncing.step (.push value)).Faithful defers window ∧
      ∃ entry, (debouncing.step (.push value)).log = debouncing.log ++ [entry] ∧
        entry.Sound defers window debouncing.log := by
  obtain ⟨debouncer, now, log⟩ := debouncing
  obtain ⟨⟨rfl, rfl⟩, listener, counted, ordered, bounded, due, awaited⟩ := faithful
  dsimp only at *
  rw [pushes_append, ← counted] at few
  have one : pushes [(.push value : Move α β)] = 1 := rfl
  have next : (debouncer.generation + 1).toNat = debouncer.generation.toNat + 1 := by
    rw [UInt64.toNat_add, UInt64.toNat_one, Nat.mod_eq_of_lt (by omega)]
  have newer : ∀ deadline ∈ debouncer.deadlines,
      deadline.generation < debouncer.generation + 1 := by
    intro deadline member
    have old := UInt64.le_iff_toNat_le.1 (bounded deadline member)
    rw [UInt64.lt_iff_toNat_lt]
    omega
  have older : ∀ deadline ∈ debouncer.deadlines,
      deadline.generation ≤ debouncer.generation + 1 := fun deadline member =>
    UInt64.le_of_lt (newer deadline member)
  have recounted : (debouncer.generation + 1).toNat =
      pushes (log.map Entry.move ++ [.push value]) := by
    rw [pushes_append, ← counted, next, one]
  by_cases deferred : debouncer.defers value = true
  · have pushed := debouncer.push_of_deferred deferred now
    have queued : (debouncer.push now value).1.deadlines =
        debouncer.deadlines ++ [⟨debouncer.generation + 1, now + debouncer.window⟩] := by
      simp only [pushed, Debouncer.deadlines, List.append_assoc]
    simp only [step, act, pushed] at queued ⊢
    refine ⟨⟨⟨rfl, rfl⟩, ?_, ?_, ?_, ?_, due, ?_⟩, _, rfl, ?_⟩
    · rw [registered_concat]
      exact listener
    · rw [List.map_append]
      exact recounted
    · rw [queued, List.pairwise_append]
      exact ⟨ordered, List.pairwise_singleton _ _, by simpa using newer⟩
    · rw [queued]
      intro deadline member
      rcases List.mem_append.1 member with old | last
      · exact older deadline old
      · rw [List.mem_singleton.1 last]
        exact UInt64.le_refl _
    · intro other waiting
      cases waiting
      exact ⟨deferred, now, awaits_push log value now, by rw [queued, List.getLast?_concat]⟩
    · refine ⟨fun other same => ?_, fun delivery none => by cases none⟩
      cases same
      exact (if_pos deferred).symm
  · have pushed := debouncer.push_of_undeferred (Bool.not_eq_true _ ▸ deferred) now
    simp only [step, act, pushed]
    refine ⟨⟨⟨rfl, rfl⟩, ?_, ?_, ordered, older, due, fun other none => by cases none⟩, _, rfl, ?_⟩
    · rw [registered_concat]
      exact listener
    · rw [List.map_append]
      exact recounted
    · refine ⟨fun other same => ?_, fun delivery _ unpushed => by cases unpushed⟩
      cases same
      rw [if_neg deferred, ← listener]
      rfl

/-- A move that leaves what waits alone, drops none but stale deadlines, and hands nothing over. -/
theorem keep {debouncer : Debouncer α β} {now : Nat} {move : Move α β}
    (settings : debouncer.defers = debouncing.debouncer.defers ∧
      debouncer.window = debouncing.debouncer.window)
    (listener : debouncer.listener = move.registers debouncing.debouncer.listener)
    (unpushed : move.pushed? = none)
    (generation : debouncer.generation = debouncing.debouncer.generation)
    (pending : debouncer.pending = debouncing.debouncer.pending)
    (fewer : debouncer.deadlines.Sublist debouncing.debouncer.deadlines)
    (due : ∀ deadline ∈ debouncer.expired, deadline.due ≤ now)
    (last : debouncer.pending.isSome →
      debouncer.deadlines.getLast? = debouncing.debouncer.deadlines.getLast?) :
    Faithful defers window
      ⟨debouncer, now, debouncing.log ++ [⟨debouncing.now, move, none⟩]⟩ where
  settings := ⟨settings.1.trans faithful.settings.1, settings.2.trans faithful.settings.2⟩
  listener := by rw [registered_concat, listener, faithful.listener]
  counted := by
    have none : pushes [move] = 0 := by simp [pushes, unpushed]
    rw [generation, faithful.counted, List.map_append, pushes_append, List.map_singleton, none,
      Nat.add_zero]
  ordered := faithful.ordered.sublist fewer
  bounded := fun deadline member =>
    generation ▸ faithful.bounded deadline (fewer.subset member)
  due := due
  awaited := by
    intro value waiting
    obtain ⟨deferred, time, awaits, deadline⟩ := faithful.awaited value (pending ▸ waiting)
    refine ⟨deferred, time, awaits.append unpushed rfl, ?_⟩
    rw [last (Option.isSome_of_mem waiting), generation]
    exact deadline

/-- The deadline of the latest push is the only one of its generation. -/
theorem eq_of_generation_eq {value : α} (waiting : value ∈ debouncing.debouncer.pending)
    {deadline : Deadline} (taken : debouncing.debouncer.expired = some deadline)
    (current : debouncing.debouncer.generation = deadline.generation) :
    debouncing.debouncer.deadlines.getLast? = some deadline := by
  obtain ⟨-, time, -, last⟩ := faithful.awaited value waiting
  have ordered := faithful.ordered
  have first : debouncing.debouncer.deadlines = deadline ::
      (debouncing.debouncer.held.toList ++ debouncing.debouncer.sent) := by
    simp [Debouncer.deadlines, taken]
  rw [first] at ordered last ⊢
  cases rest : debouncing.debouncer.held.toList ++ debouncing.debouncer.sent with
  | nil => rfl
  | cons other others =>
      -- A later one would have a later generation than that of the latest push.
      rw [rest, List.getLast?_cons_cons] at last
      rw [rest] at ordered
      have later := List.rel_of_pairwise_cons ordered (List.mem_of_getLast? last)
      rw [← current] at later
      exact (UInt64.lt_irrefl _ later).elim

/-- A fire hands over what waits when the deadline is that of the latest push, and nothing else. -/
theorem fire :
    (debouncing.step .fire).Faithful defers window ∧
      ∃ entry, (debouncing.step .fire).log = debouncing.log ++ [entry] ∧
        entry.Sound defers window debouncing.log := by
  have rest : ∀ deadline, debouncing.debouncer.expired = some deadline →
      debouncing.debouncer.deadlines = deadline ::
        { debouncing.debouncer with expired := none }.deadlines := by
    intro deadline taken
    simp [Debouncer.deadlines, taken]
  rcases debouncing.debouncer.fire_cases with
    ⟨-, fired⟩ | ⟨deadline, taken, ⟨current, value, waiting, fired⟩ | ⟨stale, fired⟩⟩
  · simp only [step, act, fired]
    exact ⟨faithful.keep ⟨rfl, rfl⟩ rfl rfl rfl rfl (.refl _) faithful.due fun _ => rfl, _, rfl,
      Entry.sound_of_quiet rfl rfl⟩
  · have same := faithful.eq_of_generation_eq waiting taken current
    obtain ⟨deferred, time, awaits, last⟩ := faithful.awaited value waiting
    obtain rfl := Option.some.inj (same.symm.trans last)
    have due := faithful.due _ taken
    simp only [step, act, fired]
    refine ⟨⟨faithful.settings, ?_, ?_, ?_, ?_, by simp, by simp⟩, _, rfl,
      ⟨fun other push => (by cases push), fun delivery handed _ => ?_⟩⟩
    · rw [registered_concat]
      exact faithful.listener
    · rw [List.map_append, pushes_append]
      exact faithful.counted
    · have ordered := faithful.ordered
      rw [rest _ taken] at ordered
      exact ordered.of_cons
    · intro other member
      refine faithful.bounded other ?_
      rw [rest _ taken]
      exact List.mem_cons_of_mem _ member
    · rw [Debouncer.deliver, faithful.listener, Option.mem_def, Option.map_eq_some_iff] at handed
      obtain ⟨listener, registered, rfl⟩ := handed
      exact ⟨registered, deferred, time, awaits, due⟩
  · simp only [step, act, fired]
    refine ⟨faithful.keep ⟨rfl, rfl⟩ rfl rfl rfl rfl ?_ (by simp) ?_, _, rfl,
      Entry.sound_of_quiet rfl rfl⟩
    · rw [rest _ taken]
      exact List.sublist_cons_self _ _
    · intro waits
      obtain ⟨value, waiting⟩ := Option.isSome_iff_exists.1 waits
      obtain ⟨-, time, -, last⟩ := faithful.awaited value waiting
      rw [last]
      rw [rest _ taken, List.getLast?_cons] at last
      have other : deadline ≠ ⟨debouncing.debouncer.generation, time + window⟩ := by
        rintro rfl
        rw [stale rfl] at waiting
        cases waiting
      cases found : { debouncing.debouncer with expired := none }.deadlines.getLast? with
      | none =>
          rw [found] at last
          exact (other (Option.some.inj last)).elim
      | some found' =>
          rw [found] at last
          exact last

/-- A move keeps the invariant, and its entry in the log is sound. -/
theorem step (move : Move α β) (few : pushes (debouncing.log.map Entry.move ++ [move]) < 2 ^ 64) :
    (debouncing.step move).Faithful defers window ∧
      ∃ entry, (debouncing.step move).log = debouncing.log ++ [entry] ∧
        entry.Sound defers window debouncing.log := by
  cases move with
  | push value => exact faithful.push value few
  | fire => exact faithful.fire
  | attach listener =>
      exact ⟨faithful.keep ⟨rfl, rfl⟩ rfl rfl rfl rfl (.refl _) faithful.due fun _ => rfl, _, rfl,
        Entry.sound_of_quiet rfl rfl⟩
  | detach =>
      exact ⟨faithful.keep ⟨rfl, rfl⟩ rfl rfl rfl rfl (.refl _) faithful.due fun _ => rfl, _, rfl,
        Entry.sound_of_quiet rfl rfl⟩
  | receive =>
      obtain ⟨fewer, last⟩ := debouncing.debouncer.deadlines_receive
      refine ⟨?_, _, rfl, Entry.sound_of_quiet rfl rfl⟩
      rcases debouncing.debouncer.receive_cases with same | ⟨deadline, rest, taken, -, received⟩
      · simp only [Debouncing.step, act, same]
        exact faithful.keep ⟨rfl, rfl⟩ rfl rfl rfl rfl (.refl _) faithful.due fun _ => rfl
      · simp only [Debouncing.step, act, received] at fewer last ⊢
        exact faithful.keep ⟨rfl, rfl⟩ rfl rfl rfl rfl fewer faithful.due fun _ => last
  | expire =>
      have kept := debouncing.debouncer.deadlines_expire debouncing.now
      refine ⟨?_, _, rfl, Entry.sound_of_quiet rfl rfl⟩
      rcases debouncing.debouncer.expire_cases debouncing.now with
        same | ⟨deadline, -, -, due, expired⟩
      · simp only [Debouncing.step, act, same]
        exact faithful.keep ⟨rfl, rfl⟩ rfl rfl rfl rfl (.refl _) faithful.due fun _ => rfl
      · simp only [Debouncing.step, act, expired] at kept ⊢
        exact faithful.keep ⟨rfl, rfl⟩ rfl rfl rfl rfl (kept ▸ .refl _) (by simpa using due)
          fun _ => kept ▸ rfl
  | wait milliseconds =>
      refine ⟨faithful.keep ⟨rfl, rfl⟩ rfl rfl rfl rfl (.refl _) ?_ fun _ => rfl, _, rfl,
        Entry.sound_of_quiet rfl rfl⟩
      exact fun deadline taken => Nat.le_add_right_of_le (faithful.due deadline taken)

end Faithful

/-- Every play from the start keeps the invariant, and all of its log is sound. -/
theorem play_faithful (defers : α → Bool) (window : Nat) (moves : List (Move α β))
    (few : pushes moves < 2 ^ 64) :
    ((start defers window).play moves).Faithful defers window ∧
      ∀ before entry later, ((start defers window).play moves).log = before ++ entry :: later →
        entry.Sound defers window before := by
  induction moves using List.reverseRecOn with
  | nil =>
      refine ⟨start_faithful defers window, fun before entry later none => ?_⟩
      cases before <;> cases none
  | append_singleton moves move ih =>
      have fewer : pushes moves < 2 ^ 64 := by
        rw [pushes_append] at few
        omega
      obtain ⟨faithful, sound⟩ := ih fewer
      have logged : ((start defers window).play moves).log.map Entry.move = moves :=
        moves_log (start defers window) moves
      obtain ⟨next, last, log, fresh⟩ := faithful.step move (by rwa [logged])
      rw [play_append]
      refine ⟨next, fun before entry later split => ?_⟩
      have split := log.symm.trans split
      rcases List.eq_nil_or_concat later with rfl | ⟨others, other, rfl⟩
      · obtain ⟨rfl, same⟩ := List.append_inj' split rfl
        cases same
        exact fresh
      · rw [List.concat_eq_append, ← List.cons_append, ← List.append_assoc] at split
        obtain ⟨same, -⟩ := List.append_inj' split rfl
        exact sound before entry others same

/-! ## Handing over what waits -/

/-- A timer that has taken no deadline receives those sent to it and hands over what waits by the
last one. -/
theorem exists_timer_moves {value : α} {deadline : Deadline} (sent : List Deadline) :
    ∀ debouncing : Debouncing α β, debouncing.debouncer.sent = sent →
      debouncing.debouncer.expired = none → debouncing.debouncer.pending = some value →
      debouncing.debouncer.deadlines.getLast? = some deadline →
      debouncing.debouncer.generation = deadline.generation →
      ∃ moves : List (Move α β), (∀ move ∈ moves, move.isTimer = true) ∧
        ∃ entry ∈ (debouncing.play moves).log.getLast?, entry.move = .fire ∧
          entry.handed = debouncing.debouncer.deliver value := by
  induction sent with
  | nil =>
      intro debouncing queue taken waiting last current
      have holds : debouncing.debouncer.held = some deadline := by
        cases holds : debouncing.debouncer.held <;>
          simp_all [Debouncer.deadlines]
      refine ⟨[.wait deadline.due, .expire, .fire], by simp [Move.isTimer], ?_⟩
      have due : deadline.due ≤ debouncing.now + deadline.due := Nat.le_add_left _ _
      refine ⟨⟨debouncing.now + deadline.due, .fire, debouncing.debouncer.deliver value⟩, ?_, rfl,
        rfl⟩
      simp [play, Debouncing.step, act, Debouncer.expire, Debouncer.fire, taken, holds, due, current,
        waiting, Debouncer.deliver]
  | cons next rest ih =>
      intro debouncing queue taken waiting last current
      have received : debouncing.debouncer.receive =
          { debouncing.debouncer with sent := rest, held := some next } := by
        simp only [Debouncer.receive, taken, queue]
      have still := debouncing.debouncer.deadlines_receive.2.trans last
      obtain ⟨moves, timer, entry, logged, fire, handed⟩ :=
        ih (debouncing.step .receive) (congrArg Debouncer.sent received)
          ((congrArg Debouncer.expired received).trans taken)
          ((congrArg Debouncer.pending received).trans waiting) still
          ((congrArg Debouncer.generation received).trans current)
      refine ⟨.receive :: moves, ?_, entry, logged, fire, handed.trans ?_⟩
      · rintro move (- | ⟨_, member⟩)
        · rfl
        · exact timer move member
      · simp only [Debouncing.step, act, received, Debouncer.deliver]

/-- Whatever the timer is late with, it can go on and hand over what waits. -/
theorem Faithful.exists_timer_moves {defers : α → Bool} {window : Nat} {debouncing : Debouncing α β}
    (faithful : debouncing.Faithful defers window) {value : α}
    (waiting : value ∈ debouncing.debouncer.pending) :
    ∃ moves : List (Move α β), (∀ move ∈ moves, move.isTimer = true) ∧
      ∃ entry ∈ (debouncing.play moves).log.getLast?, entry.move = .fire ∧
        entry.handed = debouncing.debouncer.deliver value := by
  obtain ⟨-, time, -, last⟩ := faithful.awaited value waiting
  rcases debouncing.debouncer.fire_cases with
    ⟨taken, -⟩ | ⟨deadline, -, ⟨-, other, there, fired⟩ | ⟨stale, fired⟩⟩
  · exact Debouncing.exists_timer_moves _ debouncing rfl taken waiting last rfl
  · obtain rfl := Option.some.inj (there.symm.trans waiting)
    refine ⟨[.fire], by simp [Move.isTimer],
      ⟨debouncing.now, .fire, debouncing.debouncer.deliver other⟩, ?_, rfl, rfl⟩
    simp only [play, List.foldl_cons, List.foldl_nil, Debouncing.step, act, fired,
      List.getLast?_concat]
    rfl
  · -- The stale deadline comes first, and nothing comes of it.
    have next := faithful.fire.1
    have pending : (debouncing.step .fire).debouncer.pending = some value := by
      rw [Option.mem_def] at waiting
      simpa only [Debouncing.step, act, fired] using waiting
    obtain ⟨-, time, -, last⟩ := next.awaited value pending
    obtain ⟨moves, timer, entry, logged, fire, handed⟩ :=
      Debouncing.exists_timer_moves _ (debouncing.step .fire) rfl
        (by simp only [Debouncing.step, act, fired]) pending last rfl
    refine ⟨.fire :: moves, ?_, entry, logged, fire, handed.trans ?_⟩
    · rintro move (- | ⟨_, member⟩)
      · rfl
      · exact timer move member
    · simp only [Debouncing.step, act, fired, Debouncer.deliver]

/-- What a debouncer hands over and when, whatever the timing of its threads. A value that is not
deferred is handed over in its own push. One that is deferred is not; what the timer hands over is
the value of the latest push, deferred, when its window is over, and it was not handed over before.
While a value waits, the deadline of the push that stored it, the latest one, is under way, and the
timer can go on and hand the value over. -/
theorem handed_over_once_in_time (defers : α → Bool) (window : Nat) (moves : List (Move α β))
    (few : pushes moves < 2 ^ 64) :
    let after := (start defers window).play moves
    after.log.map Entry.move = moves ∧
      (∀ before entry later, after.log = before ++ entry :: later →
        (∀ value, entry.move = .push value → entry.handed =
          if defers value then none
          else (registered before).map fun listener => ⟨listener, value⟩) ∧
        ∀ delivery ∈ entry.handed, entry.move.pushed? = none →
          registered before = some delivery.listener ∧ defers delivery.value = true ∧
            ∃ time, Awaits before delivery.value time ∧ time + window ≤ entry.time) ∧
      ∀ value ∈ after.debouncer.pending, defers value = true ∧
        ∃ time, Awaits after.log value time ∧
          (⟨after.debouncer.generation, time + window⟩ : Deadline) ∈ after.debouncer.deadlines ∧
          ∃ rest : List (Move α β), (∀ move ∈ rest, move.isTimer = true) ∧
            ∃ entry ∈ (after.play rest).log.getLast?, entry.move = .fire ∧
              entry.handed = (registered after.log).map fun listener => ⟨listener, value⟩ := by
  intro after
  obtain ⟨faithful, sound⟩ := play_faithful defers window moves few
  refine ⟨moves_log (start defers window) moves, fun before entry later split => ?_,
    fun value waiting => ?_⟩
  · exact ⟨(sound before entry later split).pushed, (sound before entry later split).fired⟩
  · obtain ⟨deferred, time, awaits, last⟩ := faithful.awaited value waiting
    obtain ⟨rest, timer, entry, logged, fire, handed⟩ := faithful.exists_timer_moves waiting
    refine ⟨deferred, time, awaits, List.mem_of_getLast? last, rest, timer, entry, logged,
      fire, ?_⟩
    rw [handed, Debouncer.deliver, faithful.listener]

/-- Zero is pushed again when the timer has taken the deadline of an earlier zero and is late to
fire it. -/
def lateFire : List (Move Nat String) :=
  [.attach "display", .push 0, .receive, .wait 30, .expire, .push 0, .fire, .receive, .wait 25]

/-- The late fire leaves the second zero waiting, and the timer still holds its deadline. -/
theorem late_fire_forgets_nothing :
    pushes lateFire < 2 ^ 64 ∧ ((start (· == 0) 20).play lateFire).debouncer.held = some ⟨2, 50⟩ ∧
      ∃ time, Awaits ((start (· == 0) 20).play lateFire).log 0 time ∧
        ∃ rest : List (Move Nat String), (∀ move ∈ rest, move.isTimer = true) ∧
          ∃ entry ∈ (((start (· == 0) 20).play lateFire).play rest).log.getLast?,
            entry.handed = some ⟨"display", 0⟩ := by
  have few : pushes lateFire < 2 ^ 64 := by decide
  obtain ⟨-, -, waits⟩ := handed_over_once_in_time (· == 0) 20 lateFire few
  obtain ⟨-, time, awaits, -, rest, timer, entry, logged, -, handed⟩ := waits 0 rfl
  exact ⟨few, rfl, time, awaits, rest, timer, entry, logged, handed⟩

end Debouncing

end RenderFarm
