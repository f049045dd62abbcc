import RenderFarm.Proofs.Worker.Prospects

/-!
# What a worker writes

The engine of a worker writes while it evaluates, which is one step of the thread, and what it writes then
is settled before the step (`texts`). All that a worker will still write when it is asked to evaluate a text
is settled when it is asked (`output`): what earlier requests make its engine write, and then what the text
does. If the worker is asked for nothing else, the reply to that text is the last thing that it does
(`Closes`), so all of the output is out when the reply is there.
-/

namespace RenderFarm

/-- What is answered when an evaluation has ended like this. -/
def Verdict.outcome? {ε σ : Type} [Scene σ] : Verdict ε σ → Option Outcome
  | .success _ text made => some (.success text (made.map Scene.size))
  | .failure _ message => some (.failure message)
  | .panic => none

namespace Worker

variable {ε σ : Type} [Scene σ] [Evaluator ε σ]

/-- What the engine writes in the next step of the thread. -/
def texts (worker : Worker ε σ) : List String :=
  match worker.thread with
  | .serving engine _ _ request => writes engine request
  | _ => []

/-- All that the engine will write when the worker is asked to evaluate a text now. -/
def output (worker : Worker ε σ) (source : String) : List String :=
  writesOf worker.outlook ++ (respond worker.prospect (.request (.evaluate source))).1.writes

section Steps

variable {worker next : Worker ε σ} {now : Nat} {effects : List Effect}

theorem texts_of_step (stepped : worker.step? now = some (next, effects)) :
    effects.filterMap Effect.text? = worker.texts := by
  cases stepped_of_step? stepped with
  | started stage | loaded stage | failed stage | crashed stage | replied stage =>
      simp [texts, stage]
  | taken stage | named stage | stunned stage => simp [texts, stage]
  | served stage => simp [texts, stage, List.filterMap_map, Function.comp_def, Effect.text?]

/-- What is written next comes first in the outlook. -/
theorem prefix_texts (worker : Worker ε σ) : worker.texts <+: writesOf worker.outlook := by
  unfold texts
  split
  · next engine scene ticket request stage =>
    rw [outlook, writesOf_append, stage]
    cases answer : answer? engine scene request <;> simp [Thread.outlook, answer]
  · exact List.nil_prefix

theorem texts_eq_nil_of_outlook (idle : worker.outlook = []) : worker.texts = [] := by
  have before := prefix_texts worker
  rw [idle] at before
  exact List.prefix_nil.1 before

/-- What is asked for is added to the output. -/
theorem output_send (worker : Worker ε σ) (source : String) :
    writesOf (worker.send (.evaluate source)).2.outlook = worker.output source := by
  rw [(send_adds worker _).writes, output]
  simp [transcript]

theorem writesOf_step (stepped : worker.step? now = some (next, effects)) :
    worker.texts ++ writesOf next.outlook = writesOf worker.outlook := by
  rw [← texts_of_step stepped]
  exact (step_conserves stepped).writes

/-- A step of the thread takes what it writes from the output. -/
theorem output_step (stepped : worker.step? now = some (next, effects)) (source : String) :
    worker.texts ++ next.output source = worker.output source := by
  rw [output, output, ← List.append_assoc, writesOf_step stepped, (step_conserves stepped).prospect]

/-- A worker at rest has nothing left to do, and holds what it will hold. -/
theorem Rests.outlook_eq_nil {engine : ε} {scene : Option σ} (rests : worker.Rests engine scene) :
    worker.outlook = [] ∧ worker.prospect = some (engine, scene) := by
  have standing : worker.thread.outlook = ([], some (engine, scene)) := by
    rw [rests.thread]
    rfl
  obtain ⟨outlook, prospect⟩ := outlook_of_thread standing
  rw [rests.inbox] at outlook prospect
  exact ⟨outlook, prospect⟩

/-- A worker at rest writes what the text makes its engine write. -/
theorem Rests.output {engine : ε} {scene : Option σ} (rests : worker.Rests engine scene)
    (source : String) : worker.output source = (Evaluator.evaluate engine source).writes := by
  rw [Worker.output, rests.outlook_eq_nil.1, rests.outlook_eq_nil.2]
  simp only [writesOf_nil, List.nil_append, respond, respondRequest]
  cases answer? engine scene (.evaluate source) <;> rfl

/-- A worker at rest answers with what its engine makes of the text. -/
theorem Rests.outcome? {engine : ε} {scene : Option σ} (rests : worker.Rests engine scene)
    (source : String) :
    worker.outcome? source = (Evaluator.evaluate engine source).verdict.outcome? := by
  rw [Worker.outcome?, rests.outlook_eq_nil.2]
  simp only [respond, respondRequest, answer?]
  cases (Evaluator.evaluate engine source).verdict <;> rfl

/-! ## The last reply -/

/-- A step works on the first part of the outlook: it is done then, or has come further with the reply still
to be sent, or nothing is left at all. -/
theorem step_outlook (stepped : worker.step? now = some (next, effects)) :
    ∃ ticket response rest, worker.outlook = (ticket, response) :: rest ∧
      (next.outlook = [] ∨ next.outlook = rest ∨
        ∃ further : Response, next.outlook = (ticket, further) :: rest ∧
          further.reply = response.reply) := by
  cases stepped_of_step? stepped with
  | started stage =>
      exact ⟨_, _, _, (outlook_of_thread (congrArg Thread.outlook stage)).1,
        .inr (.inr ⟨_, rfl, rfl⟩)⟩
  | loaded stage | replied stage =>
      exact ⟨_, _, _, (outlook_of_thread (congrArg Thread.outlook stage)).1, .inr (.inl rfl)⟩
  | failed stage | crashed stage =>
      exact ⟨_, _, _, (outlook_of_thread (congrArg Thread.outlook stage)).1, .inl rfl⟩
  | @taken engine scene ticket request rest state stage inbox announced =>
      cases responds : respondRequest request (some (engine, scene)) with
      | mk response standing =>
          obtain ⟨states, -, -, remains⟩ := outlook_serving engine scene ticket announced responds
          let serving : Worker ε σ :=
            { worker with inbox := rest, thread := .serving engine scene ticket request }
          have thread : serving.thread.outlook = _ := remains
          exact ⟨_, _, _, (outlook_of_ready stage inbox responds).1,
            .inr (.inr ⟨_, (outlook_of_thread thread).1, rfl⟩)⟩
  | @named engine scene ticket rest reply stage inbox told =>
      have responds : respondRequest .names (some (engine, scene)) =
          (⟨some reply, [], [], [.names]⟩, some (engine, scene)) := by
        simp [respondRequest, answer?, told, Request.activity?, writes]
      exact ⟨_, _, _, (outlook_of_ready stage inbox responds).1, .inr (.inl rfl)⟩
  | stunned stage inbox =>
      exact ⟨_, _, _, (outlook_of_ready stage inbox rfl).1, .inl rfl⟩
  | @served engine scene ticket request stage =>
      cases answer : answer? engine scene request with
      | none =>
          have remains : worker.thread.outlook =
              ([(ticket, ⟨none, [], writes engine request, []⟩)], none) := by
            simp only [stage, Thread.outlook, answer]
          exact ⟨_, _, _, (outlook_of_thread remains).1, .inl rfl⟩
      | some answered =>
          obtain ⟨reply, held⟩ := answered
          have remains : worker.thread.outlook =
              ([(ticket, ⟨some reply, [.idle], writes engine request, []⟩)], some held) := by
            simp only [stage, Thread.outlook, answer]
          exact ⟨_, _, _, (outlook_of_thread remains).1, .inr (.inr ⟨_, rfl, rfl⟩)⟩

end Steps

/-- The reply to a ticket is the last thing that a worker will do, unless nothing is left at all. -/
def Closes (worker : Worker ε σ) (ticket : Nat) : Prop :=
  worker.outlook = [] ∨ ∃ earlier response, worker.outlook = earlier ++ [(ticket, response)] ∧
    ∀ entry ∈ worker.outbox ++ told earlier, entry.1 ≠ ticket

theorem Fresh.closes {worker : Worker ε σ} (fresh : worker.Fresh) (source : String) :
    (worker.send (.evaluate source)).2.Closes worker.issued := by
  cases listens : worker.listens with
  | true =>
      obtain ⟨outlook, -⟩ := outlook_send listens (.evaluate source)
      exact .inr ⟨worker.outlook, _, outlook, fun entry member =>
        Nat.ne_of_lt (fresh.below entry member)⟩
  | false =>
      have gone : worker.thread.ticket? = none := by
        unfold Worker.listens at listens
        split at listens <;> simp_all [Thread.ticket?]
      have idle : (worker.send (.evaluate source)).2.underway = [] :=
        underway_eq_nil_iff.2 ⟨gone, fresh.quiet.send (.evaluate source) listens⟩
      exact .inl (List.map_eq_nil_iff.1 ((map_fst_outlook _).trans idle))

namespace Closes

variable {worker next : Worker ε σ} {ticket : Nat} (closes : worker.Closes ticket)
include closes

theorem step {now : Nat} {effects : List Effect} (stepped : worker.step? now = some (next, effects)) :
    next.Closes ticket := by
  obtain ⟨first, response, rest, before, after⟩ := step_outlook stepped
  have replies := (step_conserves stepped).replies
  rcases closes with none | ⟨earlier, last, outlook, unanswered⟩
  · rw [none] at before
    cases before
  -- What is answered early stays in front of the reply to the ticket.
  have kept : ∀ others last', next.outlook = others ++ [(ticket, last')] →
      told [(ticket, last')] = told [(ticket, last)] →
        ∀ entry ∈ next.outbox ++ told others, entry.1 ≠ ticket := by
    intro others last' goes same
    rw [goes, outlook, told_append, told_append, same, ← List.append_assoc, ← List.append_assoc,
      List.append_left_inj] at replies
    rw [replies]
    exact unanswered
  rw [outlook] at before
  rcases after with none | done | ⟨further, goes, same⟩
  · exact .inl none
  · cases earlier with
    | nil =>
        obtain ⟨-, rfl⟩ := List.cons.inj before
        exact .inl done
    | cons entry others =>
        obtain ⟨-, rfl⟩ := List.cons.inj before
        exact .inr ⟨others, last, done, kept others last done rfl⟩
  · cases earlier with
    | nil =>
        obtain ⟨head, rfl⟩ := List.cons.inj before
        obtain ⟨rfl, rfl⟩ := Prod.mk.inj head
        exact .inr ⟨[], further, goes, kept [] further goes (by simp [same])⟩
    | cons entry others =>
        obtain ⟨-, rfl⟩ := List.cons.inj before
        exact .inr ⟨(first, further) :: others, last, goes,
          kept ((first, further) :: others) last goes rfl⟩

/-- When the reply is there, nothing is left to do. -/
theorem outlook_eq_nil {reply : Reply} (found : worker.collect? ticket = some (reply, next)) :
    worker.outlook = [] := by
  refine closes.resolve_right ?_
  rintro ⟨earlier, response, -, unanswered⟩
  exact unanswered _ (List.mem_append_left _ (mem_outbox_of_collect? found).1) rfl

end Closes

end Worker

end RenderFarm
