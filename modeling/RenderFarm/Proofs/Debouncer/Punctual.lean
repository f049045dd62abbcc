import Mathlib.Logic.Relation
import RenderFarm.Proofs.Debouncer.Deadlines
import RenderFarm.Proofs.Debouncer.Timeline

/-!
# A debouncer whose timer is on time

At any instant the callers' operations and the timer's own steps take turns as they like; time passes
only while the timer has nothing to do until then (`Punctual.Step`). A debouncer that is dropped closes
the way to its timer, which leaves when it has received all that was sent. Such a timer never keeps the
clock from going on, so every timeline that can be is carried out (`Lawful.exists_reach`).
-/

namespace RenderFarm.Debouncing

/-- A debouncer on time, with the operations carried out so far and what came of them. -/
structure Punctual (α β : Type) where
  debouncer : Debouncer α β
  now : Nat
  /-- Not dropped. -/
  isOpen : Bool
  /-- The timer has not left. -/
  runs : Bool
  timeline : List (Timed α β)
  /-- What was handed over, and when. -/
  handed : List (Nat × Delivery α β)
  /-- What the askers were told, and when. -/
  answers : List (Nat × Bool)

variable {α β : Type}

/-- What an operation does to the debouncer, and what is handed over in it. -/
def Operation.act (debouncer : Debouncer α β) (now : Nat) :
    Operation α β → Debouncer α β × Option (Delivery α β)
  | .push value => debouncer.push now value
  | .attach listener => (debouncer.attach listener, none)
  | .detach => (debouncer.detach, none)
  | .ask | .drop => (debouncer, none)

theorem Operation.settings_act (operation : Operation α β) (debouncer : Debouncer α β) (now : Nat) :
    (operation.act debouncer now).1.defers = debouncer.defers ∧
      (operation.act debouncer now).1.window = debouncer.window ∧
      (operation.act debouncer now).1.listener = operation.registers debouncer.listener := by
  cases operation with
  | push value =>
      simp only [act, Debouncer.push]
      split <;> exact ⟨rfl, rfl, rfl⟩
  | attach | detach | ask | drop => exact ⟨rfl, rfl, rfl⟩

namespace Punctual

def start (defers : α → Bool) (window : Nat) : Punctual α β :=
  ⟨.start defers window, 0, true, true, [], [], []⟩

def operate (punctual : Punctual α β) (operation : Operation α β) : Punctual α β :=
  let (next, handed) := operation.act punctual.debouncer punctual.now
  { punctual with
    debouncer := next
    isOpen := match operation with
      | .drop => false
      | _ => punctual.isOpen
    timeline := punctual.timeline ++ [⟨punctual.now, operation⟩]
    handed := punctual.handed ++ (handed.map (Prod.mk punctual.now)).toList
    answers := punctual.answers ++ match operation with
      | .ask => [(punctual.now, punctual.debouncer.isWaiting)]
      | _ => [] }

theorem operate_of_quiet (punctual : Punctual α β) {operation : Operation α β}
    (quiet : operation.supersedes = false) :
    ∃ answers, punctual.operate operation = { punctual with
      debouncer := { punctual.debouncer with
        listener := operation.registers punctual.debouncer.listener }
      timeline := punctual.timeline ++ [⟨punctual.now, operation⟩]
      answers := answers } := by
  refine ⟨(punctual.operate operation).answers, ?_⟩
  cases operation with
  | push | drop => cases quiet
  | attach | detach | ask =>
      simp only [operate, Operation.act, Option.map_none, Option.toList_none, List.append_nil]
      rfl

def receive (punctual : Punctual α β) : Punctual α β :=
  { punctual with debouncer := punctual.debouncer.receive }

def expire (punctual : Punctual α β) : Punctual α β :=
  { punctual with debouncer := punctual.debouncer.expire punctual.now }

def fire (punctual : Punctual α β) : Punctual α β :=
  let (next, handed) := punctual.debouncer.fire
  { punctual with
    debouncer := next
    handed := punctual.handed ++ (handed.map (Prod.mk punctual.now)).toList }

/-- The timer has nothing to do before some time. -/
def Rests (punctual : Punctual α β) (till : Nat) : Prop :=
  punctual.runs = true →
    punctual.isOpen = true ∧ punctual.debouncer.sent = [] ∧ punctual.debouncer.expired = none ∧
      ∀ deadline ∈ punctual.debouncer.held, till ≤ deadline.due

/-- The timer has nothing left to do at present. -/
def CaughtUp (punctual : Punctual α β) : Prop :=
  punctual.Rests (punctual.now + 1)

/-- One step of a caller, of the timer, or of the clock. -/
inductive Step (punctual : Punctual α β) : Punctual α β → Prop
  | operate (isOpen : punctual.isOpen = true) (operation : Operation α β) :
      Step punctual (punctual.operate operation)
  | receive (runs : punctual.runs = true) : Step punctual punctual.receive
  | expire (runs : punctual.runs = true) : Step punctual punctual.expire
  | fire (runs : punctual.runs = true) : Step punctual punctual.fire
  | leave (runs : punctual.runs = true) (dropped : punctual.isOpen = false)
      (received : punctual.debouncer.sent = []) (untaken : punctual.debouncer.expired = none) :
      Step punctual { punctual with runs := false }
  | wait (milliseconds : Nat) (rests : punctual.Rests (punctual.now + milliseconds)) :
      Step punctual { punctual with now := punctual.now + milliseconds }

def Reach : Punctual α β → Punctual α β → Prop :=
  Relation.ReflTransGen Step

variable {punctual : Punctual α β}

/-! ## The timer catches up -/

/-- The timer receives all that was sent to it. -/
theorem reach_received (sent : List Deadline) :
    ∀ punctual : Punctual α β, punctual.runs = true → punctual.debouncer.expired = none →
      punctual.debouncer.sent = sent →
      ∃ held, punctual.Reach { punctual with
        debouncer := { punctual.debouncer with sent := [], held := held } } := by
  induction sent with
  | nil =>
      intro punctual _ _ queue
      refine ⟨punctual.debouncer.held, ?_⟩
      rw [← queue]
      exact .refl
  | cons next rest ih =>
      intro punctual runs untaken queue
      have received : punctual.receive = { punctual with
          debouncer := { punctual.debouncer with sent := rest, held := some next } } := by
        simp only [receive, Debouncer.receive, untaken, queue]
      obtain ⟨held, reach⟩ := ih { punctual with
        debouncer := { punctual.debouncer with sent := rest, held := some next } } runs untaken rfl
      exact ⟨held, .head (received ▸ .receive runs) reach⟩

/-- The timer's own part of a debouncer, once it has taken and fired what is due. -/
theorem rests_of_expire_fire (debouncer : Debouncer α β) (received : debouncer.sent = [])
    (untaken : debouncer.expired = none) (now : Nat) :
    let next := (debouncer.expire now).fire.1
    next.sent = [] ∧ next.expired = none ∧ ∀ deadline ∈ next.held, now + 1 ≤ deadline.due := by
  intro next
  obtain ⟨pending, fired⟩ := (debouncer.expire now).fire_fst
  simp only [next, fired]
  cases holds : debouncer.held with
  | none => simp [Debouncer.expire, untaken, holds, received]
  | some deadline =>
      by_cases due : deadline.due ≤ now
      · simp [Debouncer.expire, untaken, holds, due, received]
      · simp [Debouncer.expire, untaken, holds, due, received]
        omega

theorem rests_of_left (left : punctual.runs = false) (till : Nat) : punctual.Rests till :=
  fun runs => by cases left.symm.trans runs

/-- Whatever the timer has to do at present, it can do at once. -/
theorem exists_caughtUp (punctual : Punctual α β) :
    ∃ later, punctual.Reach later ∧ later.CaughtUp ∧ later.now = punctual.now ∧
      later.timeline = punctual.timeline := by
  cases runs : punctual.runs with
  | false => exact ⟨punctual, .refl, rests_of_left runs _, rfl, rfl⟩
  | true =>
      obtain ⟨pending, fired⟩ := punctual.debouncer.fire_fst
      have untaken : punctual.fire.debouncer.expired = none := by simp only [fire, fired]
      obtain ⟨held, reach⟩ := reach_received _ punctual.fire runs untaken rfl
      have caught := rests_of_expire_fire { punctual.fire.debouncer with sent := [], held := held }
        rfl untaken punctual.now
      have reach := ((reach.head (.fire runs)).tail (.expire runs)).tail (.fire runs)
      cases isOpen : punctual.isOpen with
      | true => exact ⟨_, reach, fun _ => ⟨isOpen, caught⟩, rfl, rfl⟩
      | false =>
          exact ⟨_, reach.tail (.leave runs isOpen caught.1 caught.2.1), rests_of_left rfl _, rfl, rfl⟩

/-! ## Every timeline is carried out -/

theorem CaughtUp.exists_later (caughtUp : punctual.CaughtUp) (milliseconds : Nat) :
    ∃ later, punctual.Reach later ∧ later.CaughtUp ∧ later.now = punctual.now + milliseconds ∧
      later.timeline = punctual.timeline := by
  induction milliseconds with
  | zero => exact ⟨punctual, .refl, caughtUp, rfl, rfl⟩
  | succ milliseconds ih =>
      obtain ⟨later, reach, rests, now, timeline⟩ := ih
      obtain ⟨last, rest, caughtUp, same, kept⟩ :=
        exists_caughtUp { later with now := later.now + 1 }
      refine ⟨last, (reach.tail (.wait 1 rests)).trans rest, caughtUp, ?_, kept.trans timeline⟩
      rw [same, now, Nat.add_assoc]

/-- Only a drop closes a debouncer. -/
theorem Reach.exists_drop {defers : α → Bool} {window : Nat}
    (reach : (start defers window).Reach punctual) (dropped : punctual.isOpen = false) :
    ∃ entry ∈ punctual.timeline, entry.operation = .drop := by
  induction reach with
  | refl => cases dropped
  | tail _ step ih =>
      cases step with
      | operate isOpen operation =>
          refine ⟨⟨_, operation⟩, List.mem_append_right _ List.mem_cons_self, ?_⟩
          cases operation <;> first | rfl | cases isOpen.symm.trans dropped
      | receive | expire | fire | leave | wait => exact ih dropped

end Punctual

/-- A debouncer whose timer is on time carries out every timeline that can be. -/
theorem Lawful.exists_reach {defers : α → Bool} {window : Nat} {timeline : List (Timed α β)}
    (lawful : Lawful defers window timeline) {horizon : Nat}
    (past : ∀ entry ∈ timeline, entry.time ≤ horizon) :
    ∃ final, (Punctual.start defers window).Reach final ∧ final.CaughtUp ∧ final.now = horizon ∧
      final.timeline = timeline := by
  induction timeline using List.reverseRecOn generalizing horizon with
  | nil =>
      have rests : (Punctual.start defers window : Punctual α β).CaughtUp :=
        fun _ => ⟨rfl, rfl, rfl, fun _ none => by cases none⟩
      simpa [Punctual.start] using rests.exists_later horizon
  | append_singleton earlier entry ih =>
      have before : ∀ other ∈ earlier, other.time ≤ entry.time := fun other member =>
        (List.pairwise_append.1 lawful.ordered).2.2 other member entry List.mem_cons_self
      obtain ⟨present, reach, -, now, done⟩ := ih lawful.of_append before
      have isOpen : present.isOpen = true := by
        by_contra dropped
        obtain ⟨other, member, drop⟩ := reach.exists_drop (Bool.not_eq_true _ ▸ dropped)
        exact (List.pairwise_append.1 lawful.kept).2.2 other (done ▸ member) entry
          List.mem_cons_self drop
      obtain ⟨next, rest, caughtUp, still, timeline⟩ :=
        (present.operate entry.operation).exists_caughtUp
      obtain ⟨final, wait, caughtUp, late, kept⟩ := caughtUp.exists_later (horizon - entry.time)
      have ahead : entry.time ≤ horizon :=
        past entry (List.mem_append_right _ List.mem_cons_self)
      have began : (present.operate entry.operation).now = entry.time := now
      have carried : (present.operate entry.operation).timeline = earlier ++ [entry] := by
        simp only [Punctual.operate, done, now]
      refine ⟨final, ((reach.tail (.operate isOpen _)).trans rest).trans wait, caughtUp, ?_,
        (kept.trans timeline).trans carried⟩
      rw [late, still, began, Nat.add_sub_cancel' ahead]

end RenderFarm.Debouncing
