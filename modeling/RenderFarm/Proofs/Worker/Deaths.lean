import RenderFarm.Proofs.Worker.Queue

/-!
# Workers that have died

A thread that still takes requests up answers every one of them within its `steps`. So where a
request for a row comes back without an answer, the thread is gone (`listens_of_disconnected`), be it
that it was gone before or that it ended meanwhile.
-/

namespace RenderFarm

namespace Worker

variable {ε σ : Type}

/-- An upper bound of the steps until the thread has nothing to do. -/
def steps (worker : Worker ε σ) : Nat :=
  3 * worker.inbox.length +
    match worker.thread with
    | .absent | .ready .. | .ended => 0
    | .loading .. | .replying .. => 1
    | .starting .. | .serving .. => 2

theorem steps_le_work (worker : Worker ε σ) : worker.steps ≤ worker.work := by
  unfold steps work
  split <;> omega

/-- A ticket whose reply is there or to come, unless the thread dies. -/
def Expects (worker : Worker ε σ) (ticket : Nat) : Prop :=
  worker.listens = true → ticket ∈ worker.underway ∨ ∃ reply, (ticket, reply) ∈ worker.outbox

theorem expects_send (worker : Worker ε σ) (request : Request) :
    (worker.send request).2.Expects (worker.send request).1 := by
  intro listens
  have listened : worker.listens = true := listens
  exact .inl (by simp [send, underway, listened])

variable [Scene σ] [Evaluator ε σ]

theorem steps_lt {worker next : Worker ε σ} {now : Nat} {effects : List Effect}
    (stepped : worker.step? now = some (next, effects)) : next.steps < worker.steps := by
  cases stepped_of_step? stepped with
  | started stage | loaded stage | failed stage | crashed stage | replied stage =>
      simp [steps, announce, post, retire, stage]
  | taken stage queue => simp [steps, announce, stage, queue]; omega
  | named stage queue | stunned stage queue => simp [steps, post, retire, stage, queue]
  | @served engine scene _ request stage =>
      cases answer? engine scene request <;> simp [steps, replying, proceed, retire, stage]

theorem Expects.step {worker next : Worker ε σ} {ticket : Nat} (expects : worker.Expects ticket)
    {now : Nat} {effects : List Effect} (stepped : worker.step? now = some (next, effects)) :
    next.Expects ticket := by
  cases stepped_of_step? stepped with
  | failed stage | crashed stage | stunned stage => exact fun listens => by cases listens
  | started stage =>
      intro _
      simpa [underway, announce, stage, Thread.ticket?] using expects (by simp [listens, stage])
  | taken stage queue =>
      intro _
      simpa [underway, announce, stage, queue, Thread.ticket?] using
        expects (by simp [listens, stage])
  | loaded stage | replied stage =>
      intro _
      have before := expects (by simp [listens, stage])
      simp only [underway, stage, Thread.ticket?, Option.toList_some, List.singleton_append,
        List.mem_cons] at before
      simp only [underway, post, announce, Thread.ticket?, Option.toList_none, List.nil_append,
        List.mem_append, List.mem_singleton, Prod.mk.injEq]
      rcases before with (rfl | queued) | ⟨reply, sent⟩
      · exact .inr ⟨_, .inr ⟨rfl, rfl⟩⟩
      · exact .inl queued
      · exact .inr ⟨reply, .inl sent⟩
  | named stage queue =>
      intro _
      have before := expects (by simp [listens, stage])
      simp only [underway, stage, queue, Thread.ticket?, Option.toList_none, List.nil_append,
        List.map_cons, List.mem_cons] at before
      simp only [underway, post, Thread.ticket?, Option.toList_none, List.nil_append,
        List.mem_append, List.mem_singleton, Prod.mk.injEq]
      rcases before with (rfl | queued) | ⟨reply, sent⟩
      · exact .inr ⟨_, .inr ⟨rfl, rfl⟩⟩
      · exact .inl queued
      · exact .inr ⟨reply, .inl sent⟩
  | @served engine scene _ request stage =>
      cases answer? engine scene request with
      | none => exact fun listens => by cases listens
      | some answered =>
          intro _
          simpa [underway, proceed, replying, stage, Thread.ticket?] using
            expects (by simp [listens, stage])

/-- A thread that takes requests up and has nothing to do owes nothing. -/
theorem underway_eq_nil_of_idle {worker : Worker ε σ} (listens : worker.listens = true) {now : Nat}
    (idle : worker.step? now = none) : worker.underway = [] := by
  cases stage : worker.thread with
  | absent | ended => simp [Worker.listens, stage] at listens
  | starting load ticket => simp [step?, stage] at idle
  | loading load ticket => cases load <;> simp [step?, stage] at idle
  | ready engine scene =>
      cases queue : worker.inbox with
      | nil => simp [underway, stage, queue, Thread.ticket?]
      | cons entry rest => exact absurd idle (step?_ne_none_of_inbox stage (by simp [queue]) now)
  | serving engine scene ticket request => simp [step?_serving stage] at idle
  | replying engine scene ticket reply => simp [step?, stage] at idle

/-- A thread that has nothing to do although a reply is still to come is gone. -/
theorem Expects.listens_eq_false {worker : Worker ε σ} {ticket : Nat}
    (expects : worker.Expects ticket) (absent : worker.collect? ticket = none) {now : Nat}
    (idle : worker.step? now = none) : worker.listens = false := by
  refine Bool.eq_false_iff.2 fun listens => ?_
  have underway : ticket ∈ worker.underway := by
    refine (expects listens).resolve_right ?_
    rintro ⟨reply, member⟩
    exact notMem_outbox_of_collect? absent reply member
  rw [underway_eq_nil_of_idle listens idle] at underway
  cases underway

end Worker

namespace Farm

variable {ε σ Audience : Type} [Scene σ] [Evaluator ε σ] {listeners : Listeners ε σ Audience}

variable (listeners) in
/-- A wait that is long enough fails only if the thread has died. -/
theorem listens_of_await (steady : Scene.Steady σ) {height row : UInt32} (below : row < height)
    {id ticket : Nat} (count : Nat) {farm : Farm ε σ Audience} {worker : Worker ε σ}
    (there : farm.workers[id]? = some worker) (owes : worker.Owes height ticket row)
    (expects : worker.Expects ticket) (enough : worker.steps ≤ count) (failure : Failure)
    (failed : (await listeners id ticket count farm).1 = .error failure) :
    ∀ last ∈ (await listeners id ticket count farm).2.workers[id]?, last.listens = false := by
  induction count generalizing farm worker with
  | zero =>
      cases found : worker.collect? ticket with
      | some collected => simp [await, there, found] at failed
      | none =>
          have idle : worker.step? farm.now = none := by
            cases stepped : worker.step? farm.now with
            | none => rfl
            | some taken => exact absurd (Worker.steps_lt stepped) (by omega)
          simpa [await, there, found] using expects.listens_eq_false found idle
  | succ count ih =>
      cases found : worker.collect? ticket with
      | some collected => simp [await, there, found] at failed
      | none =>
          rw [await_succ there found] at failed ⊢
          cases stepped : worker.step? farm.now with
          | none => simpa [there] using expects.listens_eq_false found stepped
          | some taken =>
              obtain ⟨next, effects⟩ := taken
              rw [stepped] at failed
              obtain ⟨still, reports⟩ := owes.step steady below stepped
              have placed : (effects.foldl (Farm.perform listeners id)
                  (farm.setWorker id next)).workers[id]? = some next := by
                rw [workers_reports id reports]
                exact getElem?_setWorker there next
              have fewer := Worker.steps_lt stepped
              exact ih placed still (expects.step stepped) (by omega) failed

/-- A worker that retains a height and gives no answer for a row below it has died. -/
theorem listens_of_disconnected (steady : Scene.Steady σ) {height row : UInt32}
    (below : row < height) {id : Nat} {farm : Farm ε σ Audience}
    (retains : ∀ worker ∈ farm.workers[id]?, worker.Retains height)
    (lost : (farm.answerRow listeners id row).1 = .disconnected) :
    ∀ last ∈ (farm.answerRow listeners id row).2.workers[id]?, last.listens = false := by
  cases there : farm.workers[id]? with
  | none =>
      intro last member
      simp [answerRow, request, send, there] at member
  | some worker =>
      have owes := (retains worker there).send row
      have died := listens_of_await listeners steady below
        (worker.send (.compute row)).2.work (getElem?_setWorker there _) owes
        (worker.expects_send _) (Worker.steps_le_work _)
      unfold answerRow at lost ⊢
      rw [request_eq there] at lost ⊢
      split at lost
      · cases lost
      · cases lost
      · next failure after got =>
        rw [got] at died
        exact died failure rfl

end Farm

end RenderFarm
