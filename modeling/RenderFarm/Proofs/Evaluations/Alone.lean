import Mathlib.Logic.Relation
import RenderFarm.Proofs.Evaluations.Moves
import RenderFarm.Proofs.Worker.Deaths

/-!
# A call alone

`Farm.evaluate` takes a call from its first access to its last, and lets the worker that it waits for
work until the reply is there. `LoneStep` is one access of the call or one step of a worker, and a
whole evaluation is a sequence of them (`evaluate_reach`). So it is one of the ways in which a call
can go (`exists_moves_evaluate`), with callbacks that leave the workers alone.
-/

namespace RenderFarm

namespace Evaluations

variable {ε σ Audience : Type} [Scene σ] [Evaluator ε σ]

/-- A step of a call, or of the thread of a worker while it stands still. -/
inductive LoneStep (listeners : Listeners ε σ Audience) (source : String) :
    Farm ε σ Audience × Call.Phase → Farm ε σ Audience × Call.Phase → Prop
  | call (farm : Farm ε σ Audience) (phase : Call.Phase) :
    LoneStep listeners source (farm, phase) ((Farm.stepCall listeners source phase farm).2,
      (Farm.stepCall listeners source phase farm).1)
  | work {farm : Farm ε σ Audience} (phase : Call.Phase) {id : Nat} {worker next : Worker ε σ}
    {effects : List Effect} (there : farm.workers[id]? = some worker)
    (stepped : worker.step? farm.now = some (next, effects)) :
    LoneStep listeners source (farm, phase)
      (effects.foldl (Farm.perform listeners id) (farm.setWorker id next), phase)

/-- What happens while a call is under way. -/
abbrev Reach (listeners : Listeners ε σ Audience) (source : String) :
    Farm ε σ Audience × Call.Phase → Farm ε σ Audience × Call.Phase → Prop :=
  Relation.ReflTransGen (LoneStep listeners source)

variable {listeners : Listeners ε σ Audience} {source : String}

/-- The steps of a call alone and of the workers are moves. -/
theorem Reach.exists_moves {before after : Farm ε σ Audience × Call.Phase}
    (reach : Reach listeners source before after) {evaluations : Evaluations ε σ Audience}
    (farm : evaluations.farm = before.1) (calls : evaluations.calls = [⟨source, before.2⟩]) :
    ∃ moves, (evaluations.play listeners moves).farm = after.1 ∧
      (evaluations.play listeners moves).calls = [⟨source, after.2⟩] := by
  induction reach with
  | refl => exact ⟨[], farm, calls⟩
  | tail _ last ih =>
      obtain ⟨moves, farm', calls'⟩ := ih
      cases last with
      | call =>
          refine ⟨moves ++ [.call 0], ?_⟩
          rw [play_append]
          generalize evaluations.play listeners moves = current at farm' calls' ⊢
          obtain rfl := farm'
          simp [play, step, advance, calls']
      | @work _ _ id _ _ _ there stepped =>
          refine ⟨moves ++ [.work id], ?_⟩
          rw [play_append]
          generalize evaluations.play listeners moves = current at farm' calls' ⊢
          obtain rfl := farm'
          simp only [play, List.foldl_cons, List.foldl_nil, step, work, there, stepped, calls',
            and_self]

variable (source) in
/-- The text is sent to one worker after the other. -/
theorem sendAll_reach (unsent : List Nat) (tickets : List (Nat × Nat))
    (farm : Farm ε σ Audience) :
    Reach listeners source (farm, .sending unsent tickets)
      ((Farm.sendAll source unsent farm).2,
        .waiting (tickets ++ (Farm.sendAll source unsent farm).1) []) := by
  induction unsent generalizing tickets farm with
  | nil =>
      have last : LoneStep listeners source (farm, .sending [] tickets) _ :=
        .call farm (.sending [] tickets)
      refine .single ?_
      simpa [Farm.sendAll, Farm.stepCall] using last
  | cons id unsent ih =>
      refine .head (.call farm (.sending (id :: unsent) tickets)) ?_
      simp only [Farm.stepCall, Farm.sendAll]
      cases farm.send id (.evaluate source) with
      | mk ticket sent =>
          cases ticket with
          | none => simpa using ih tickets sent
          | some ticket => simpa using ih (tickets ++ [(id, ticket)]) sent

/-- The outcome in what was received from worker `id`. -/
def outcomeOf (id : Nat) : Except Failure Reply → Except Failure Outcome
  | .ok (.outcome outcome) => .ok outcome
  | .ok _ => .error (.disconnected id)
  | .error failure => .error failure

theorem receiveOutcome_eq (farm : Farm ε σ Audience) (id ticket : Nat) :
    farm.receiveOutcome listeners id ticket =
      (outcomeOf id (farm.receive listeners id ticket).1,
        (farm.receive listeners id ticket).2) := by
  unfold Farm.receiveOutcome
  split
  · next got => rw [got]; rfl
  · next reply _ other got =>
      rw [got]
      cases reply with
      | outcome outcome => exact (other outcome rfl).elim
      | loaded | colors | names => rfl
  · next got => rw [got]; rfl

/-- A worker that is given enough steps comes to where its reply, or its silence, can be noted. -/
theorem await_reach (spare : Farm.Unheard listeners fun farm => farm.workers) {id : Nat}
    (ticket : Nat) (phase : Call.Phase) (count : Nat) {farm : Farm ε σ Audience}
    {worker : Worker ε σ} (there : farm.workers[id]? = some worker)
    (enough : worker.steps ≤ count) :
    ∃ after, Reach listeners source (farm, phase) (after, phase) ∧
      after.poll? id ticket = some (outcomeOf id (Farm.await listeners id ticket count farm).1,
        (Farm.await listeners id ticket count farm).2) := by
  induction count generalizing farm worker with
  | zero =>
      refine ⟨farm, .refl, ?_⟩
      cases got : worker.collect? ticket with
      | some collected =>
          obtain ⟨reply, next⟩ := collected
          simp only [Farm.poll?, Farm.await, there, got]
          cases reply <;> rfl
      | none =>
          cases stepped : worker.step? farm.now with
          | none => simp [Farm.poll?, Farm.await, there, got, stepped, outcomeOf]
          | some taken => exact absurd (Worker.steps_lt stepped) (by omega)
  | succ count ih =>
      cases got : worker.collect? ticket with
      | some collected =>
          obtain ⟨reply, next⟩ := collected
          refine ⟨farm, .refl, ?_⟩
          simp only [Farm.poll?, Farm.await, there, got]
          cases reply <;> rfl
      | none =>
          rw [Farm.await_succ there got]
          cases stepped : worker.step? farm.now with
          | none =>
              refine ⟨farm, .refl, ?_⟩
              simp [Farm.poll?, there, got, stepped, outcomeOf]
          | some taken =>
              obtain ⟨next, effects⟩ := taken
              have placed : (effects.foldl (Farm.perform listeners id)
                  (farm.setWorker id next)).workers[id]? = some next := by
                rw [spare.performAll]
                exact Farm.getElem?_setWorker there next
              have fewer := Worker.steps_lt stepped
              obtain ⟨after, reach, polled⟩ := ih placed (by omega)
              exact ⟨after, .head (.work phase there stepped) reach, polled⟩

variable (source) in
/-- A call waits for one outcome and takes it. -/
theorem receiveOutcome_reach (spare : Farm.Unheard listeners fun farm => farm.workers)
    (id ticket : Nat) (rest : List (Nat × Nat)) (outcomes : List Outcome)
    (farm : Farm ε σ Audience) :
    Reach listeners source (farm, .waiting ((id, ticket) :: rest) outcomes)
      ((farm.receiveOutcome listeners id ticket).2,
        match (farm.receiveOutcome listeners id ticket).1 with
        | .ok outcome => .waiting rest (outcomes ++ [outcome])
        | .error failure =>
          if outcomes.isEmpty then .returned (.error failure) else .waiting rest outcomes) := by
  have polled : ∃ after, Reach listeners source
      (farm, .waiting ((id, ticket) :: rest) outcomes)
      (after, .waiting ((id, ticket) :: rest) outcomes) ∧
      after.poll? id ticket = some (farm.receiveOutcome listeners id ticket) := by
    rw [receiveOutcome_eq]
    cases there : farm.workers[id]? with
    | none => exact ⟨farm, .refl, by simp [Farm.poll?, Farm.receive, Farm.await, there, outcomeOf]⟩
    | some worker =>
        simp only [Farm.receive, there, Option.map_some, Option.getD_some]
        exact await_reach spare ticket _ _ there worker.steps_le_work
  obtain ⟨after, reach, polled⟩ := polled
  refine reach.tail ?_
  have last : LoneStep listeners source (after, .waiting ((id, ticket) :: rest) outcomes) _ :=
    .call after (.waiting ((id, ticket) :: rest) outcomes)
  simp only [Farm.stepCall, polled] at last
  generalize farm.receiveOutcome listeners id ticket = result at last ⊢
  obtain ⟨failure | outcome, farm'⟩ := result
  · dsimp only at last ⊢
    split <;> simp_all
  · exact last

variable (source) in
/-- A call that has its first outcome takes all others. -/
theorem receiveAll_reach (spare : Farm.Unheard listeners fun farm => farm.workers)
    (tickets : List (Nat × Nat)) (primary : Outcome) (outcomes : List Outcome)
    (farm : Farm ε σ Audience) :
    Reach listeners source (farm, .waiting tickets (primary :: outcomes))
      ((Farm.receiveAll listeners tickets farm).2,
        .waiting [] (primary :: outcomes ++ (Farm.receiveAll listeners tickets farm).1)) := by
  induction tickets generalizing outcomes farm with
  | nil => simpa [Farm.receiveAll] using Relation.ReflTransGen.refl
  | cons entry rest ih =>
      obtain ⟨id, ticket⟩ := entry
      have first := receiveOutcome_reach source spare id ticket rest
        (primary :: outcomes) farm
      simp only [Farm.receiveAll]
      generalize farm.receiveOutcome listeners id ticket = result at first ⊢
      obtain ⟨failure | outcome, farm'⟩ := result
      · exact first.trans (by simpa using ih outcomes farm')
      · exact first.trans (by simpa using ih (outcomes ++ [outcome]) farm')

/-- A call that waits can come to return. -/
theorem exists_reach_of_waiting (spare : Farm.Unheard listeners fun farm => farm.workers)
    (tickets : List (Nat × Nat)) (outcomes : List Outcome) (farm : Farm ε σ Audience) :
    ∃ last result, Reach listeners source (farm, .waiting tickets outcomes)
      (last, .returned result) := by
  induction tickets generalizing outcomes farm with
  | nil =>
      cases outcomes with
      | nil => exact ⟨_, _, .single (.call farm (.waiting [] []))⟩
      | cons primary others =>
          have last : LoneStep listeners source (farm, .waiting [] (primary :: others)) _ :=
            .call farm (.waiting [] (primary :: others))
          simp only [Farm.stepCall] at last
          split at last <;> exact ⟨_, _, .single last⟩
  | cons entry rest ih =>
      obtain ⟨id, ticket⟩ := entry
      have first := receiveOutcome_reach source spare id ticket rest outcomes farm
      generalize farm.receiveOutcome listeners id ticket = result at first
      obtain ⟨failure | outcome, next⟩ := result
      · dsimp only at first
        split at first
        · exact ⟨_, _, first⟩
        · obtain ⟨last, result, others⟩ := ih outcomes next
          exact ⟨last, result, first.trans others⟩
      · obtain ⟨last, result, others⟩ := ih (outcomes ++ [outcome]) next
        exact ⟨last, result, first.trans others⟩

variable (source) in
/-- Wherever a call stands, it can come to return. -/
theorem exists_reach_returned (spare : Farm.Unheard listeners fun farm => farm.workers)
    (phase : Call.Phase) (farm : Farm ε σ Audience) :
    ∃ last result, Reach listeners source (farm, phase) (last, .returned result) := by
  cases phase with
  | sending unsent tickets =>
      obtain ⟨last, result, others⟩ := exists_reach_of_waiting spare _ [] _
      exact ⟨last, result, (sendAll_reach source unsent tickets farm).trans others⟩
  | waiting tickets outcomes => exact exists_reach_of_waiting spare tickets outcomes farm
  | returned result => exact ⟨farm, result, .refl⟩

/-- An evaluation is what a call alone does when its worker works as long as it waits. -/
theorem evaluate_reach (spare : Farm.Unheard listeners fun farm => farm.workers)
    (farm : Farm ε σ Audience) (source : String) :
    Reach listeners source (farm, (Call.start farm.workers.size source).phase)
      ((farm.evaluate listeners source).2, .returned (farm.evaluate listeners source).1) := by
  refine Relation.ReflTransGen.trans
    (sendAll_reach source (List.range farm.workers.size) [] farm) ?_
  unfold Farm.evaluate
  generalize Farm.sendAll source (List.range farm.workers.size) farm = result
  obtain ⟨_ | ⟨⟨id, ticket⟩, rest⟩, farm'⟩ := result
  · exact .single (.call farm' (.waiting [] []))
  · have first := receiveOutcome_reach source spare id ticket rest [] farm'
    dsimp only
    generalize farm'.receiveOutcome listeners id ticket = result at first ⊢
    obtain ⟨failure | primary, farm''⟩ := result
    · exact first
    · have others := receiveAll_reach source spare rest primary [] farm''
      refine first.trans (others.trans (.single ?_))
      dsimp only
      have last : LoneStep listeners source ((Farm.receiveAll listeners rest farm'').2,
          .waiting [] (primary :: (Farm.receiveAll listeners rest farm'').1)) _ := .call _ _
      simp only [Farm.stepCall] at last
      simp only [List.singleton_append]
      split <;> simp_all

/-- An evaluation is one of the runs of a call. -/
theorem exists_moves_evaluate (spare : Farm.Unheard listeners fun farm => farm.workers)
    (farm : Farm ε σ Audience) (source : String) :
    ∃ moves, ((start farm [source]).play listeners moves).farm =
        (farm.evaluate listeners source).2 ∧
      ((start farm [source]).play listeners moves).calls =
        [⟨source, .returned (farm.evaluate listeners source).1⟩] :=
  (evaluate_reach spare farm source).exists_moves rfl rfl

end Evaluations

end RenderFarm
