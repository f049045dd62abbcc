import RenderFarm.Proofs.EvaluateCall.Moves

/-!
# A call can come to return

Wherever a call stands and whatever the engines are writing, some moves bring it to its end. A worker that
writes comes to take the step of its thread (`exists_committed`), and as a thread has only so many steps
before it, the reply that is waited for, or the end of its worker, can be noted in the end (`exists_polled`).
-/

namespace RenderFarm

variable {ε σ Audience : Type} [Scene σ] [Evaluator ε σ]

/-- Whether a thread has something to do does not depend on the time. -/
theorem Worker.idle_always {worker : Worker ε σ} {now : Nat} (idle : worker.step? now = none)
    (later : Nat) : worker.step? later = none := by
  cases stage : worker.thread with
  | absent | ended => simp [step?, stage]
  | starting | replying => simp [step?, stage] at idle
  | loading load ticket => cases load <;> simp [step?, stage] at idle
  | serving => simp [step?_serving stage] at idle
  | ready engine scene =>
      cases queue : worker.inbox with
      | nil => simp [step?, stage, queue]
      | cons => exact absurd idle (step?_ne_none_of_inbox stage (by simp [queue]) now)

namespace EvaluateCall

variable (listeners : Listeners ε σ Audience)

/-- Some moves of the workers bring a call there, while its own thread stands still. -/
structure Waits (call later : EvaluateCall ε σ Audience) : Prop where
  leads : ∃ moves, call.play listeners moves = later
  phase : later.phase = call.phase
  telling : later.telling = call.telling

variable {listeners}

namespace Waits

theorem refl (call : EvaluateCall ε σ Audience) : Waits listeners call call :=
  ⟨⟨[], rfl⟩, rfl, rfl⟩

theorem trans {call later last : EvaluateCall ε σ Audience} (first : Waits listeners call later)
    (second : Waits listeners later last) : Waits listeners call last := by
  obtain ⟨moves, rfl⟩ := first.leads
  obtain ⟨more, rfl⟩ := second.leads
  exact ⟨⟨moves ++ more, play_append ..⟩, second.phase.trans first.phase,
    second.telling.trans first.telling⟩

variable (listeners) in
theorem commit (call : EvaluateCall ε σ Audience) (id : Nat) :
    (call.commit listeners id).phase = call.phase ∧
      (call.commit listeners id).telling = call.telling := by
  unfold EvaluateCall.commit
  split
  · exact ⟨rfl, rfl⟩
  · split <;> exact ⟨rfl, rfl⟩

theorem work (call : EvaluateCall ε σ Audience) (id : Nat) :
    Waits listeners call (call.work listeners id) := by
  have committed := commit listeners call id
  have same : (call.work listeners id).phase = call.phase ∧
      (call.work listeners id).telling = call.telling := by
    unfold EvaluateCall.work
    split
    · exact ⟨rfl, rfl⟩
    · exact ⟨rfl, rfl⟩
    · exact committed
    · split
      · exact committed
      · exact ⟨rfl, rfl⟩
  exact ⟨⟨[.work id], rfl⟩, same.1, same.2⟩

end Waits

section Workers

variable (spare : Farm.Unheard listeners fun farm => farm.workers) {id : Nat}
include spare

/-- A publication of what a worker writes comes to its end. -/
theorem exists_published {call : EvaluateCall ε σ Audience} {rest : List String} {telling : Broadcast}
    (under : call.writing id = some ⟨rest, some telling⟩) :
    ∃ later, Waits listeners call later ∧ later.farm.workers = call.farm.workers ∧
      later.writing id = some ⟨rest, none⟩ := by
  obtain ⟨event, targets, closed⟩ := telling
  induction targets generalizing call closed with
  | nil =>
      refine ⟨_, .work call id, ?_, ?_⟩ <;> simp only [work, under, Broadcast.step]
      · rfl
      · simp [write]
  | cons target targets ih =>
      have kept : (call.work listeners id).farm.workers = call.farm.workers := by
        simp only [work, under]
        exact (spare.lasting call.farm.workers).broadcast _ rfl
      obtain ⟨closed', handing, -⟩ :=
        (⟨event, target :: targets, closed⟩ : Broadcast).step_cons listeners.onEvent rfl call.farm
      have next : (call.work listeners id).writing id =
          some ⟨rest, some ⟨event, targets, closed'⟩⟩ := by
        simp only [work, under, handing]
        simp [write]
      obtain ⟨later, waits, same, done⟩ := ih closed' next
      exact ⟨later, (Waits.work call id).trans waits, same.trans kept, done⟩

/-- All that a worker writes is written at some time. -/
theorem exists_written {call : EvaluateCall ε σ Audience} {rest : List String} {telling : Option Broadcast}
    (under : call.writing id = some ⟨rest, telling⟩) :
    ∃ later, Waits listeners call later ∧ later.farm.workers = call.farm.workers ∧
      later.writing id = some ⟨[], none⟩ := by
  have published : ∀ {call : EvaluateCall ε σ Audience} {rest : List String} {telling : Option Broadcast},
      call.writing id = some ⟨rest, telling⟩ → ∃ later, Waits listeners call later ∧
        later.farm.workers = call.farm.workers ∧ later.writing id = some ⟨rest, none⟩ := by
    intro call rest telling under
    cases telling with
    | none => exact ⟨call, .refl call, rfl, under⟩
    | some telling => exact exists_published spare under
  induction rest generalizing call telling with
  | nil => exact published under
  | cons text rest ih =>
      obtain ⟨silent, waits, same, between⟩ := published under
      let telling' := if id = 0 then some (Broadcast.start silent.farm.bus (.stdoutWritten text)) else none
      have begun : silent.work listeners id = silent.write id (some ⟨rest, telling'⟩) := by
        simp only [work, between]
        rfl
      have next : (silent.work listeners id).writing id = some ⟨rest, telling'⟩ := by
        rw [begun]
        simp [write]
      obtain ⟨later, more, kept, written⟩ := ih next
      refine ⟨later, (waits.trans (.work silent id)).trans more, kept.trans ?_, written⟩
      rw [begun]
      exact same

/-- A worker whose thread has something to do comes to take a step. -/
theorem exists_committed {call : EvaluateCall ε σ Audience} {worker : Worker ε σ}
    (there : call.farm.workers[id]? = some worker)
    (busy : worker.step? call.farm.now ≠ none) :
    ∃ later next now effects, Waits listeners call later ∧ worker.step? now = some (next, effects) ∧
      later.farm.workers[id]? = some next := by
  have committed : ∀ {before : EvaluateCall ε σ Audience}, Waits listeners call before →
      before.farm.workers = call.farm.workers → before.work listeners id = before.commit listeners id →
      ∃ later next now effects, Waits listeners call later ∧ worker.step? now = some (next, effects) ∧
        later.farm.workers[id]? = some next := by
    intro before waits same commits
    have found : before.farm.workers[id]? = some worker := same ▸ there
    obtain ⟨⟨next, effects⟩, stepped⟩ := Option.ne_none_iff_exists'.1
      fun idle => busy (Worker.idle_always (idle : worker.step? before.farm.now = none) _)
    refine ⟨_, next, _, effects, waits.trans (.work before id), stepped, ?_⟩
    simp only [commits, commit, found, stepped]
    rw [spare.performAll]
    exact Farm.getElem?_setWorker found next
  cases under : call.writing id with
  | some writing =>
      obtain ⟨before, waits, same, written⟩ := exists_written spare under
      exact committed waits same (by simp only [work, written])
  | none =>
      have owed : (call.farm.workers[id]?.map Worker.texts).getD [] = worker.texts := by simp [there]
      cases texts : worker.texts with
      | nil => exact committed (.refl call) rfl (by simp only [work, under, owed, texts])
      | cons text rest =>
          have begun : (call.work listeners id).writing id = some ⟨text :: rest, none⟩ ∧
              (call.work listeners id).farm = call.farm := by
            simp only [work, under, owed, texts]
            exact ⟨by simp [write], rfl⟩
          obtain ⟨before, waits, same, written⟩ := exists_written spare begun.1
          exact committed ((Waits.work call id).trans waits) (same.trans (by rw [begun.2]))
            (by simp only [work, written])

/-- What a call waits for can be noted at some time. -/
theorem exists_polled (id ticket : Nat) (call : EvaluateCall ε σ Audience) :
    ∃ later, Waits listeners call later ∧ (later.farm.poll? id ticket).isSome := by
  cases there : call.farm.workers[id]? with
  | none => exact ⟨call, .refl call, by simp [Farm.poll?, there]⟩
  | some worker =>
      generalize left : worker.steps = count
      induction count using Nat.strongRecOn generalizing call worker with
      | ind count ih =>
          cases got : worker.collect? ticket with
          | some collected =>
              obtain ⟨reply, next⟩ := collected
              refine ⟨call, .refl call, ?_⟩
              cases reply <;> simp [Farm.poll?, there, got]
          | none =>
              by_cases busy : worker.step? call.farm.now = none
              · exact ⟨call, .refl call, by simp [Farm.poll?, there, got, busy]⟩
              · obtain ⟨later, next, now, effects, waits, stepped, placed⟩ :=
                  exists_committed spare there busy
                obtain ⟨last, more, polled⟩ :=
                  ih _ (left ▸ Worker.steps_lt stepped) later next placed rfl
                exact ⟨last, waits.trans more, polled⟩

end Workers

/-! ## The call -/

section Call

/-- Some moves bring a call to return. -/
def CanReturn (listeners : Listeners ε σ Audience) (call : EvaluateCall ε σ Audience) : Prop :=
  ∃ moves result, (call.play listeners moves).phase = .returned result

theorem CanReturn.of_returned {call : EvaluateCall ε σ Audience} {result : Except Failure Outcome}
    (returned : call.phase = .returned result) : CanReturn listeners call :=
  ⟨[], result, returned⟩

theorem CanReturn.of_waits {call later : EvaluateCall ε σ Audience} (waits : Waits listeners call later)
    (can : CanReturn listeners later) : CanReturn listeners call := by
  obtain ⟨moves, rfl⟩ := waits.leads
  obtain ⟨more, result, returned⟩ := can
  exact ⟨moves ++ more, result, by rwa [play_append]⟩

theorem CanReturn.of_advance {call : EvaluateCall ε σ Audience}
    (can : CanReturn listeners (call.advance listeners)) : CanReturn listeners call := by
  obtain ⟨moves, result, returned⟩ := can
  exact ⟨.call :: moves, result, returned⟩

/-- A call that publishes its failure goes on when that is over. -/
theorem canReturn_of_telling {call : EvaluateCall ε σ Audience} {telling : Broadcast}
    (under : call.telling = some telling)
    (others : ∀ later : EvaluateCall ε σ Audience, later.telling = none →
      later.phase = call.phase.conclude → CanReturn listeners later) : CanReturn listeners call := by
  obtain ⟨event, targets, closed⟩ := telling
  refine .of_advance ?_
  induction targets generalizing call closed with
  | nil =>
      refine others _ ?_ ?_ <;> simp only [advance, under, Broadcast.step]
  | cons target targets ih =>
      obtain ⟨closed', handing, -⟩ :=
        (⟨event, target :: targets, closed⟩ : Broadcast).step_cons listeners.onEvent rfl call.farm
      refine .of_advance (ih ?_ closed' ?_)
      · intro later silent phase
        refine others later silent (phase.trans ?_)
        simp only [advance, under, handing]
      · simp only [advance, under, handing]

/-- A call that has nothing to publish takes its next access. -/
theorem advance_eq {call : EvaluateCall ε σ Audience} (silent : call.telling = none)
    (sound : call.phase.failure? = none) :
    call.advance listeners =
      { call with
        phase := (Farm.stepCall listeners call.source call.phase call.farm).1
        farm := (Farm.stepCall listeners call.source call.phase call.farm).2 } := by
  simp only [advance, silent, sound]

theorem canReturn_of_waiting (spare : Farm.Unheard listeners fun farm => farm.workers)
    (tickets : List (Nat × Nat)) (outcomes : List Outcome) (call : EvaluateCall ε σ Audience)
    (silent : call.telling = none) (phase : call.phase = .waiting tickets outcomes) :
    CanReturn listeners call := by
  induction tickets generalizing outcomes call with
  | nil =>
      cases outcomes with
      | nil =>
          have sound : call.phase.failure? = none := by rw [phase]; rfl
          have returned : (call.advance listeners).phase = .returned (.error (.noSuchWorker 0)) := by
            rw [advance_eq silent sound, phase]
            rfl
          exact .of_advance (.of_returned returned)
      | cons primary others =>
          cases first : Farm.firstError (primary :: others) with
          | none =>
              have sound : call.phase.failure? = none := by rw [phase]; exact first
              have returned : (call.advance listeners).phase = .returned (.ok primary) := by
                rw [advance_eq silent sound, phase]
                simp only [Farm.stepCall, first]
              exact .of_advance (.of_returned returned)
          | some message =>
              have failed : call.phase.failure? = some message := by rw [phase]; exact first
              have begun : call.advance listeners =
                  { call with telling := some (.start call.farm.bus (.evalError message)) } := by
                simp only [advance, silent, failed]
              refine .of_advance (canReturn_of_telling (congrArg EvaluateCall.telling begun) ?_)
              intro later _ concluded
              have returned : later.phase = .returned (.ok primary) := by
                rw [concluded, begun, phase]
                rfl
              exact .of_returned returned
  | cons entry rest ih =>
      obtain ⟨id, ticket⟩ := entry
      obtain ⟨later, waits, polled⟩ := exists_polled spare id ticket call
      refine .of_waits waits (.of_advance ?_)
      have still : later.telling = none := waits.telling.trans silent
      have same : later.phase = .waiting ((id, ticket) :: rest) outcomes := waits.phase.trans phase
      have sound : later.phase.failure? = none := by rw [same]; rfl
      rw [advance_eq still sound, same]
      obtain ⟨⟨failure | outcome, farm⟩, answered⟩ := Option.isSome_iff_exists.1 polled
      · simp only [Farm.stepCall, answered]
        split
        · exact .of_returned rfl
        · exact ih outcomes _ still rfl
      · simp only [Farm.stepCall, answered]
        exact ih (outcomes ++ [outcome]) _ still rfl

theorem canReturn_of_sending (spare : Farm.Unheard listeners fun farm => farm.workers)
    (unsent : List Nat) (tickets : List (Nat × Nat)) (call : EvaluateCall ε σ Audience)
    (silent : call.telling = none) (phase : call.phase = .sending unsent tickets) :
    CanReturn listeners call := by
  have sound : call.phase.failure? = none := by rw [phase]; rfl
  induction unsent generalizing tickets call with
  | nil =>
      refine .of_advance (canReturn_of_waiting spare tickets [] _ ?_ ?_) <;>
        rw [advance_eq silent sound]
      · exact silent
      · rw [phase]
        rfl
  | cons id unsent ih =>
      refine .of_advance ?_
      rw [advance_eq silent sound, phase]
      exact ih _ _ silent rfl rfl

/-- Whatever is under way, a call can come to return. -/
theorem canReturn (spare : Farm.Unheard listeners fun farm => farm.workers)
    (call : EvaluateCall ε σ Audience) : CanReturn listeners call := by
  have quiet : ∀ later : EvaluateCall ε σ Audience, later.telling = none →
      CanReturn listeners later := by
    intro later silent
    cases phase : later.phase with
    | sending unsent tickets => exact canReturn_of_sending spare unsent tickets later silent phase
    | waiting tickets outcomes => exact canReturn_of_waiting spare tickets outcomes later silent phase
    | returned result => exact .of_returned phase
  cases telling : call.telling with
  | none => exact quiet call telling
  | some broadcast => exact canReturn_of_telling telling fun later silent _ => quiet later silent

end Call

end EvaluateCall

end RenderFarm
