import RenderFarm.Proofs.Worker.Lifetime

/-!
# What an evaluation will come to

What a worker will answer when it is asked to evaluate a text is settled when it is asked
(`Worker.outcome?`): it follows from the engine and the scene that will be there when all that was
asked before has been served. From then on the worker promises this answer under the ticket
(`Worker.Promises`), until it is there or the thread has nothing left to do. That holds for every worker
that tickets have not been mixed up for (`Worker.Fresh`), as they never are (`Lifetime.play_fresh`).
-/

namespace RenderFarm

namespace Worker

variable {ε σ : Type} [Scene σ] [Evaluator ε σ]

/-- What a worker will answer when it is asked to evaluate a source text; nothing if its thread is gone,
or will be before it has answered. -/
def outcome? (worker : Worker ε σ) (source : String) : Option Outcome :=
  match (respond worker.prospect (.request (.evaluate source))).1.reply with
  | some (.outcome outcome) => some outcome
  | _ => none

theorem reply_eq_outcome? (worker : Worker ε σ) (source : String) :
    (respond worker.prospect (.request (.evaluate source))).1.reply =
      (worker.outcome? source).map Reply.outcome := by
  unfold outcome?
  cases prospect : worker.prospect with
  | none => rfl
  | some held =>
      obtain ⟨engine, scene⟩ := held
      cases answer : answer? engine scene (.evaluate source) with
      | none => simp [respond, respondRequest, answer]
      | some answered =>
          obtain ⟨reply, engine', scene'⟩ := answered
          obtain ⟨outcome, rfl⟩ := outcome_of_answer? answer
          simp [respond, respondRequest, answer]

/-- What a worker will answer does not change while it works. -/
theorem outcome?_step {worker next : Worker ε σ} {now : Nat} {effects : List Effect}
    (stepped : worker.step? now = some (next, effects)) (source : String) :
    next.outcome? source = worker.outcome? source := by
  simp only [outcome?, (step_conserves stepped).prospect]

/-! ## Tickets -/

/-- A worker all of whose replies, those to come included, are to tickets that it has handed out. -/
structure Fresh (worker : Worker ε σ) : Prop where
  quiet : worker.Quiet
  below : ∀ entry ∈ worker.outbox ++ told worker.outlook, entry.1 < worker.issued

theorem create_fresh (id window : Nat) : (create id window : Worker ε σ).Fresh :=
  ⟨fun _ => rfl, nofun⟩

namespace Fresh

variable {worker next : Worker ε σ} (fresh : worker.Fresh)
include fresh

theorem start (load : Load ε) : (worker.start load).2.Fresh where
  quiet := fun _ => rfl
  below := by
    intro entry member
    rcases List.mem_append.1 member with there | later
    · exact Nat.lt_succ_of_lt (fresh.below entry (List.mem_append_left _ there))
    · obtain ⟨response, only, -⟩ := mem_told.1 later
      obtain ⟨same, -⟩ := Prod.mk.inj (List.mem_singleton.1 only)
      exact same ▸ Nat.lt_succ_self _

theorem send (request : Request) : (worker.send request).2.Fresh where
  quiet := fresh.quiet.send request
  below := by
    intro entry member
    rw [(send_adds worker request).replies, ← List.append_assoc] at member
    rcases List.mem_append.1 member with before | last
    · exact Nat.lt_succ_of_lt (fresh.below entry before)
    · have asked := mem_of_mem_told _ _ last
      rw [List.map_singleton, List.mem_singleton] at asked
      exact asked ▸ Nat.lt_succ_self _

theorem collect? {ticket : Nat} {reply : Reply}
    (found : worker.collect? ticket = some (reply, next)) : next.Fresh := by
  obtain ⟨-, rfl⟩ := mem_outbox_of_collect? found
  refine ⟨fresh.quiet, fun entry member => fresh.below entry ?_⟩
  exact (List.filter_sublist.append (.refl _)).subset member

theorem step {now : Nat} {effects : List Effect} (stepped : worker.step? now = some (next, effects)) :
    next.Fresh where
  quiet := Quiet.step stepped
  below := by
    rw [(step_conserves stepped).replies, step_issued stepped]
    exact fresh.below

end Fresh

/-! ## Promises -/

/-- A worker whose reply to a ticket is, or will be, the outcome given; without one no reply comes. -/
structure Promises (worker : Worker ε σ) (ticket : Nat) (outcome : Option Outcome) : Prop where
  quiet : worker.Quiet
  reply : (worker.outbox ++ told worker.outlook).lookup ticket = outcome.map Reply.outcome

theorem Fresh.promises {worker : Worker ε σ} (fresh : worker.Fresh) (source : String) :
    (worker.send (.evaluate source)).2.Promises worker.issued (worker.outcome? source) where
  quiet := fresh.quiet.send _
  reply := by
    have unused : (worker.outbox ++ told worker.outlook).lookup worker.issued = none := by
      rw [List.lookup_eq_none_iff]
      intro entry member
      simpa using Nat.ne_of_gt (fresh.below entry member)
    rw [(send_adds worker _).replies, ← List.append_assoc, List.lookup_append]
    have same : (worker.send (.evaluate source)).2.outbox = worker.outbox := rfl
    rw [same, unused, Option.none_or]
    simp only [transcript, told_cons, told_nil, List.append_nil, reply_eq_outcome?]
    cases worker.outcome? source <;> simp

namespace Promises

variable {worker next : Worker ε σ} {ticket : Nat} {outcome : Option Outcome}
  (promises : worker.Promises ticket outcome)
include promises

theorem step {now : Nat} {effects : List Effect} (stepped : worker.step? now = some (next, effects)) :
    next.Promises ticket outcome :=
  ⟨Quiet.step stepped, by rw [(step_conserves stepped).replies, promises.reply]⟩

/-- What is collected is the outcome. -/
theorem collect? {reply : Reply} (found : worker.collect? ticket = some (reply, next)) :
    ∃ given, outcome = some given ∧ reply = .outcome given := by
  simp only [Worker.collect?, Option.map_eq_some_iff, Prod.mk.injEq] at found
  obtain ⟨_, found, rfl, -⟩ := found
  have promised := promises.reply
  rw [List.lookup_append, found, Option.some_or] at promised
  cases outcome with
  | none => cases promised
  | some given => exact ⟨given, rfl, Option.some.inj promised⟩

/-- Without a reply and without anything left to do there is no outcome. -/
theorem eq_none_of_idle {now : Nat} (absent : worker.collect? ticket = none)
    (idle : worker.step? now = none) : outcome = none := by
  have nothing : worker.outlook = [] := by
    rw [← List.map_eq_nil_iff, map_fst_outlook, promises.quiet.underway_eq_nil idle]
  rw [Worker.collect?, Option.map_eq_none_iff] at absent
  have promised := promises.reply
  rw [nothing, told_nil, List.append_nil, absent] at promised
  exact Option.map_eq_none_iff.1 promised.symm

end Promises

end Worker

namespace Lifetime

variable {ε σ : Type} [Scene σ] [Evaluator ε σ]

/-- Whatever is done with a worker, its tickets are not mixed up. -/
theorem play_fresh (id window : Nat) (moves : List (Move ε)) :
    ((create id window : Lifetime ε σ).play moves).worker.Fresh := by
  suffices ∀ life : Lifetime ε σ, life.worker.Fresh → (life.play moves).worker.Fresh from
    this _ (Worker.create_fresh id window)
  induction moves with
  | nil => exact fun _ fresh => fresh
  | cons move rest ih =>
      refine fun life fresh => ih _ ?_
      cases move with
      | init load =>
          simp only [step, init]
          split
          · exact fresh
          · exact fresh.start load
      | send request =>
          simp only [step, send]
          split
          · exact fresh
          · exact fresh.send request
      | collect ticket =>
          simp only [step, collect]
          split
          · next found => exact fresh.collect? found
          · exact fresh
      | subscribe | unsubscribe =>
          simp only [step]
          split <;> exact ⟨fresh.quiet, fresh.below⟩
      | drop | wait | elapse => exact ⟨fresh.quiet, fresh.below⟩
      | work =>
          simp only [step, work]
          split
          · exact fresh
          · next stepped => exact fresh.step stepped

end Lifetime

end RenderFarm
