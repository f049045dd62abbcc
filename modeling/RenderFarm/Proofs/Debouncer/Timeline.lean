import Mathlib.Data.List.Basic
import RenderFarm.Debouncer

/-!
# What a timeline asks of a debouncer

A timeline is what is done with a debouncer, and when. It says of itself what is handed over: a value
that is not deferred at once, a deferred one when its window is over, if by then no other was pushed and
the debouncer was not dropped, and each to the listener registered at that moment (`handovers`). It also
says when a value waits (`waits`). No generation and no timer has a part in this.
-/

namespace RenderFarm.Debouncing

/-- What is done with a debouncer. -/
inductive Operation (α β : Type) where
  | push (value : α)
  | attach (listener : β)
  | detach
  /-- Asks whether a value waits. -/
  | ask
  | drop
  deriving DecidableEq

namespace Operation

variable {α β : Type}

/-- Whether a value that waits is given up. -/
def supersedes : Operation α β → Bool
  | .push _ | .drop => true
  | .attach _ | .detach | .ask => false

/-- The listener registered afterwards, given the one before. -/
def registers (listener : Option β) : Operation α β → Option β
  | .attach next => some next
  | .detach => none
  | .push _ | .ask | .drop => listener

def pushed? : Operation α β → Option α
  | .push value => some value
  | .attach _ | .detach | .ask | .drop => none

theorem pushed?_eq_none {operation : Operation α β} (quiet : operation.supersedes = false) :
    operation.pushed? = none := by
  cases operation <;> first | rfl | cases quiet

end Operation

/-- An operation and its time. -/
structure Timed (α β : Type) where
  time : Nat
  operation : Operation α β

variable {α β : Type}

/-- The listener registered after some operations. -/
def listening (timeline : List (Timed α β)) : Option β :=
  timeline.foldl (fun listener entry => entry.operation.registers listener) none

theorem listening_concat (timeline : List (Timed α β)) (entry : Timed α β) :
    listening (timeline ++ [entry]) = entry.operation.registers (listening timeline) :=
  List.foldl_append

/-- A push leaves the listener registered. -/
theorem listening_skip (before after : List (Timed α β)) (time : Nat) (value : α) :
    listening (before ++ ⟨time, .push value⟩ :: after) = listening (before ++ after) := by
  simp [listening, Operation.registers]

variable (defers : α → Bool) (window : Nat)

/-- What comes of an operation, given those before and after it: when and to whom its value is handed
over. -/
def Timed.handover? (before : List (Timed α β)) (entry : Timed α β) (after : List (Timed α β)) :
    Option (Nat × Delivery α β) :=
  match entry.operation with
  | .push value =>
    if defers value then
      let meanwhile := after.filter fun later => later.time < entry.time + window
      if meanwhile.any fun later => later.operation.supersedes then none
      else (listening (before ++ meanwhile)).map fun listener =>
        (entry.time + window, ⟨listener, value⟩)
    else (listening before).map fun listener => (entry.time, ⟨listener, value⟩)
  | .attach _ | .detach | .ask | .drop => none

/-- What comes of the operations of a list, given those before and after it. -/
def handovers (before : List (Timed α β)) :
    List (Timed α β) → List (Timed α β) → List (Nat × Delivery α β)
  | [], _ => []
  | entry :: rest, after =>
    (entry.handover? defers window before (rest ++ after)).toList ++
      handovers (before ++ [entry]) rest after

/-- Whether a value waits at a time: the latest that was pushed, if it is deferred and its window not
over. -/
def waits (timeline : List (Timed α β)) (now : Nat) : Bool :=
  match (timeline.filterMap fun entry => entry.operation.pushed?.map (Prod.mk entry.time)).getLast? with
  | some (time, value) => defers value && now < time + window
  | none => false

/-- What the askers of a list are told, and when, given the operations before it. -/
def answers (before : List (Timed α β)) : List (Timed α β) → List (Nat × Bool)
  | [] => []
  | entry :: rest =>
    (match entry.operation with
      | .ask => [(entry.time, waits defers window before entry.time)]
      | .push _ | .attach _ | .detach | .drop => []) ++
      answers (before ++ [entry]) rest

/-- A timeline that can be: times do not go back, nothing is done after the drop, and nothing at the
very moment at which a window ends. -/
structure Lawful (timeline : List (Timed α β)) : Prop where
  ordered : timeline.Pairwise fun earlier later => earlier.time ≤ later.time
  kept : timeline.Pairwise fun earlier _ => earlier.operation ≠ .drop
  apart : timeline.Pairwise fun earlier later => ∀ value ∈ earlier.operation.pushed?,
    defers value = true → later.time ≠ earlier.time + window

variable {defers window}

theorem Lawful.of_append {before after : List (Timed α β)}
    (lawful : Lawful defers window (before ++ after)) : Lawful defers window before where
  ordered := (List.pairwise_append.1 lawful.ordered).1
  kept := (List.pairwise_append.1 lawful.kept).1
  apart := (List.pairwise_append.1 lawful.apart).1

/-! ## One more operation -/

theorem handovers_append (before first second after : List (Timed α β)) :
    handovers defers window before (first ++ second) after =
      handovers defers window before first (second ++ after) ++
        handovers defers window (before ++ first) second after := by
  induction first generalizing before with
  | nil => rw [List.nil_append, List.append_nil, handovers, List.nil_append]
  | cons entry rest ih =>
      simp only [List.cons_append, handovers, ih, List.append_assoc, List.nil_append]

theorem handovers_concat (before timeline : List (Timed α β)) (entry : Timed α β)
    (after : List (Timed α β)) :
    handovers defers window before (timeline ++ [entry]) after =
      handovers defers window before timeline (entry :: after) ++
        (entry.handover? defers window (before ++ timeline) after).toList := by
  rw [handovers_append, List.singleton_append, handovers, handovers, List.nil_append, List.append_nil]

/-- Only what is pushed is handed over. -/
theorem handover?_eq_none {entry : Timed α β} (unpushed : entry.operation.pushed? = none)
    (before after : List (Timed α β)) : entry.handover? defers window before after = none := by
  rcases entry with ⟨time, operation⟩
  cases operation with
  | push value => cases unpushed
  | attach _ | detach | ask | drop => rfl

theorem handovers_concat_unpushed {entry : Timed α β} (unpushed : entry.operation.pushed? = none)
    (before timeline after : List (Timed α β)) :
    handovers defers window before (timeline ++ [entry]) after =
      handovers defers window before timeline (entry :: after) := by
  rw [handovers_concat, handover?_eq_none unpushed, Option.toList_none, List.append_nil]

theorem handovers_eq_nil {entries : List (Timed α β)}
    (unpushed : ∀ entry ∈ entries, entry.operation.pushed? = none) (before after : List (Timed α β)) :
    handovers defers window before entries after = [] := by
  induction entries generalizing before with
  | nil => rfl
  | cons entry rest ih =>
      have others : ∀ other ∈ rest, other.operation.pushed? = none :=
        fun other member => unpushed other (List.mem_cons_of_mem _ member)
      rw [handovers, handover?_eq_none (unpushed entry List.mem_cons_self), ih others]
      rfl

/-- A value that is not deferred. -/
theorem handover?_undeferred {value : α} (undeferred : defers value = false) (time : Nat)
    (before after : List (Timed α β)) :
    (⟨time, .push value⟩ : Timed α β).handover? defers window before after =
      (listening before).map fun listener => (time, ⟨listener, value⟩) := by
  simp [Timed.handover?, undeferred]

/-- A deferred value that is given up before its window is over. -/
theorem handover?_superseded {value : α} (deferred : defers value = true) {time : Nat}
    {entry : Timed α β} {after : List (Timed α β)} (member : entry ∈ after)
    (early : entry.time < time + window) (supersedes : entry.operation.supersedes = true)
    (before : List (Timed α β)) :
    (⟨time, .push value⟩ : Timed α β).handover? defers window before after = none := by
  have given : (after.filter fun later => later.time < time + window).any
      (fun later => later.operation.supersedes) = true :=
    List.any_eq_true.2 ⟨entry, List.mem_filter.2 ⟨member, decide_eq_true early⟩, supersedes⟩
  simp only [Timed.handover?, deferred, if_true, given]

/-- A deferred value that is not given up while its window lasts. -/
theorem handover?_elapsed {value : α} (deferred : defers value = true) {time : Nat}
    {since future : List (Timed α β)} (early : ∀ entry ∈ since, entry.time < time + window)
    (quiet : ∀ entry ∈ since, entry.operation.supersedes = false)
    (late : ∀ entry ∈ future, time + window ≤ entry.time) (before : List (Timed α β)) :
    (⟨time, .push value⟩ : Timed α β).handover? defers window before (since ++ future) =
      (listening (before ++ since)).map fun listener => (time + window, ⟨listener, value⟩) := by
  have meanwhile :
      (since ++ future).filter (fun later => later.time < time + window) = since := by
    rw [List.filter_append, List.filter_eq_self.2 fun entry member => decide_eq_true (early entry member),
      List.filter_eq_nil_iff.2 fun entry member => by simpa using late entry member, List.append_nil]
  have given : since.any (fun later => later.operation.supersedes) = false :=
    List.any_eq_false.2 fun entry member => by rw [quiet entry member]; decide
  simp only [Timed.handover?, deferred, if_true, meanwhile, given, Bool.false_eq_true, if_false]

/-- The time of a deferred value that is handed over. -/
theorem time_of_handover? {value : α} (deferred : defers value = true) {time : Nat}
    {before after : List (Timed α β)} {told : Nat × Delivery α β}
    (handed : (⟨time, .push value⟩ : Timed α β).handover? defers window before after = some told) :
    told.1 = time + window := by
  simp only [Timed.handover?, deferred, if_true] at handed
  split at handed
  · cases handed
  · obtain ⟨listener, -, rfl⟩ := Option.map_eq_some_iff.1 handed
    rfl

theorem answers_concat (before timeline : List (Timed α β)) (entry : Timed α β) :
    answers defers window before (timeline ++ [entry]) =
      answers defers window before timeline ++
        answers defers window (before ++ timeline) [entry] := by
  induction timeline generalizing before with
  | nil => rw [List.nil_append, List.append_nil, answers.eq_1, List.nil_append]
  | cons first rest ih =>
      simp only [List.cons_append, answers.eq_2 _ _ _ first, ih, List.append_assoc, List.nil_append]

/-- A push is the latest there is. -/
theorem waits_push (timeline : List (Timed α β)) (time : Nat) (value : α) (now : Nat) :
    waits defers window (timeline ++ [⟨time, .push value⟩]) now =
      (defers value && now < time + window) := by
  simp [waits, List.filterMap_append, Operation.pushed?]

theorem waits_append {since : List (Timed α β)}
    (unpushed : ∀ entry ∈ since, entry.operation.pushed? = none) (timeline : List (Timed α β))
    (now : Nat) : waits defers window (timeline ++ since) now = waits defers window timeline now := by
  have nothing : (since.filterMap fun entry =>
      entry.operation.pushed?.map (Prod.mk entry.time)) = [] := by
    rw [List.filterMap_eq_nil_iff]
    exact fun entry member => by rw [unpushed entry member]; rfl
  rw [waits, List.filterMap_append, nothing, List.append_nil, waits]

/-- What does not wait will not begin to by itself. -/
theorem waits_mono {timeline : List (Timed α β)} {now later : Nat} (order : now ≤ later)
    (nothing : waits defers window timeline now = false) :
    waits defers window timeline later = false := by
  unfold waits at nothing ⊢
  split at nothing
  · simp only [Bool.and_eq_false_iff, decide_eq_false_iff_not, Nat.not_lt] at nothing ⊢
    exact nothing.imp_right fun elapsed => Nat.le_trans elapsed order
  · rfl

end RenderFarm.Debouncing
