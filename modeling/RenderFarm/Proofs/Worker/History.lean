import RenderFarm.Proofs.Worker.Responses
import RenderFarm.Scenario.Workers

/-!
# Workers whose replies are awaited

When each reply is awaited before the next operation, the replies of a worker are a function of the
operations so far (`replies_of_history`): those of `transcript`, in which an engine starts without a
scene, a scene is there until an evaluation replaces or drops it, and nothing is there after a panic or
a load that came to nothing, until an engine is loaded again.
-/

namespace RenderFarm

namespace Worker

variable {ε σ : Type}

/-- Begins an operation; gives the ticket of its reply. -/
def begin (worker : Worker ε σ) : Operation ε → Nat × Worker ε σ
  | .init load => worker.start load
  | .request request => worker.send request

/-- A reply that was sent last is found, and nothing of it stays. -/
theorem collect?_of_outbox {worker : Worker ε σ} {before : List (Nat × Reply)} {ticket : Nat}
    {reply : Reply} (outbox : worker.outbox = before ++ [(ticket, reply)])
    (earlier : ∀ entry ∈ before, entry.1 < ticket) :
    worker.collect? ticket = some (reply, { worker with outbox := before }) := by
  have same : worker = { worker with outbox := before }.post ticket reply := by
    cases worker
    simpa [post] using outbox
  rw [same]
  exact collect?_post earlier reply

variable [Scene σ] [Evaluator ε σ]

/-- Carries out an operation at time `now` and awaits its reply, which does not come when the worker
is disconnected. -/
def operate (now : Nat) (worker : Worker ε σ) (operation : Operation ε) :
    Option Reply × Worker ε σ :=
  let (ticket, begun) := worker.begin operation
  let (settled, _) := begun.settle now
  match settled.collect? ticket with
  | some (reply, next) => (some reply, next)
  | none => (none, settled)

/-- Carries out operations, each at its time; gives the replies. -/
def operateAll : List (Nat × Operation ε) → Worker ε σ → List (Option Reply) × Worker ε σ
  | [], worker => ([], worker)
  | (now, operation) :: rest, worker =>
    let (reply, next) := worker.operate now operation
    let (replies, last) := operateAll rest next
    (reply :: replies, last)

/-- A worker whose replies have all been awaited, with what it is left with. -/
structure Stands (worker : Worker ε σ) (standing : Standing ε σ) : Prop where
  quiet : worker.Quiet
  idle : worker.underway = []
  prospect : worker.prospect = standing
  outbox : ∀ entry ∈ worker.outbox, entry.1 < worker.issued

/-- The worker `last`, at rest, has sent just the replies that were still to come of `worker`. -/
structure Exhausts (worker last : Worker ε σ) : Prop where
  quiet : last.Quiet
  idle : last.underway = []
  prospect : last.prospect = worker.prospect
  issued : last.issued = worker.issued
  outbox : last.outbox = worker.outbox ++ told worker.outlook

theorem Quiet.exhausts_of_idle {worker : Worker ε σ} (quiet : worker.Quiet) {now : Nat}
    (idle : worker.step? now = none) : worker.Exhausts worker := by
  have free := quiet.underway_eq_nil idle
  have nothing : worker.outlook = [] := by
    rw [← List.map_eq_nil_iff, map_fst_outlook, free]
  exact ⟨quiet, free, rfl, rfl, by simp [nothing]⟩

theorem Quiet.exhausts_stepMany {worker : Worker ε σ} (quiet : worker.Quiet) (now : Nat)
    {count : Nat} (enough : worker.steps ≤ count) :
    worker.Exhausts (worker.stepMany now count).1 := by
  induction count generalizing worker with
  | zero =>
      cases stepped : worker.step? now with
      | none => exact quiet.exhausts_of_idle stepped
      | some taken => exact absurd (steps_lt stepped) (by omega)
  | succ count ih =>
      cases stepped : worker.step? now with
      | none =>
          simp only [Worker.stepMany, stepped]
          exact quiet.exhausts_of_idle stepped
      | some taken =>
          obtain ⟨next, effects⟩ := taken
          have fewer := steps_lt stepped
          have conserves := step_conserves stepped
          have last := ih (Quiet.step stepped) (by omega)
          simp only [Worker.stepMany, stepped]
          exact ⟨last.quiet, last.idle, last.prospect.trans conserves.prospect,
            last.issued.trans (step_issued stepped), last.outbox.trans conserves.replies⟩

/-! ## One operation -/

/-- A worker whose replies have all been awaited owes, once an operation has begun, the reply to that
and nothing else. -/
theorem Stands.begin {worker : Worker ε σ} {standing : Standing ε σ} (stands : worker.Stands standing)
    (operation : Operation ε) :
    let begun := (worker.begin operation).2
    (worker.begin operation).1 = worker.issued ∧ begun.issued = worker.issued + 1 ∧
      begun.Quiet ∧ begun.outbox = worker.outbox ∧
      told begun.outlook = told (transcript standing [(worker.issued, operation)]) ∧
      begun.prospect = (respond standing operation).2 := by
  have nothing : worker.outlook = [] := by
    rw [← List.map_eq_nil_iff, map_fst_outlook, stands.idle]
  cases operation with
  | init load =>
      refine ⟨rfl, rfl, fun _ => rfl, rfl, ?_, rfl⟩
      rfl
  | request request =>
      have adds := worker.send_adds request
      refine ⟨rfl, rfl, stands.quiet.send request, rfl, ?_, ?_⟩
      · rw [← stands.prospect]
        exact adds.replies.trans (by rw [nothing, told_nil, List.nil_append])
      · rw [← stands.prospect]
        exact adds.prospect

/-- The reply to an operation is the one that is told of it. -/
theorem Stands.operate {worker : Worker ε σ} {standing : Standing ε σ}
    (stands : worker.Stands standing) (now : Nat) (operation : Operation ε) :
    (worker.operate now operation).1 = (respond standing operation).1.reply ∧
      (worker.operate now operation).2.Stands (respond standing operation).2 := by
  obtain ⟨ticket, issued, quiet, outbox, replies, prospect⟩ := stands.begin operation
  have exhausts : (worker.begin operation).2.Exhausts ((worker.begin operation).2.settle now).1 :=
    quiet.exhausts_stepMany now (steps_le_work _)
  have left := exhausts.outbox
  rw [outbox, replies, transcript, transcript, told_cons, told_nil, List.append_nil] at left
  have bounded : ∀ entry ∈ worker.outbox,
      entry.1 < ((worker.begin operation).2.settle now).1.issued := by
    intro entry member
    rw [exhausts.issued, issued]
    exact Nat.lt_succ_of_lt (stands.outbox entry member)
  cases answer : (respond standing operation).1.reply with
  | none =>
      have outbox : ((worker.begin operation).2.settle now).1.outbox = worker.outbox := by
        simpa [answer] using left
      have absent : ((worker.begin operation).2.settle now).1.collect?
          (worker.begin operation).1 = none := by
        refine collect?_eq_none ?_
        rw [outbox, ticket]
        exact stands.outbox
      simp only [Worker.operate, absent]
      refine ⟨trivial, exhausts.quiet, exhausts.idle, exhausts.prospect.trans prospect, ?_⟩
      rw [outbox]
      exact bounded
  | some reply =>
      have outbox : ((worker.begin operation).2.settle now).1.outbox =
          worker.outbox ++ [((worker.begin operation).1, reply)] := by
        simpa [answer, ticket] using left
      have found := collect?_of_outbox outbox (by rw [ticket]; exact stands.outbox)
      simp only [Worker.operate, found]
      exact ⟨trivial, exhausts.quiet, exhausts.idle, exhausts.prospect.trans prospect, bounded⟩

/-! ## Histories -/

theorem Stands.operateAll {worker : Worker ε σ} {standing : Standing ε σ}
    (stands : worker.Stands standing) (operations : List (Nat × Operation ε)) :
    (worker.operateAll operations).1 =
        (transcript standing operations).map (fun entry => entry.2.reply) ∧
      (worker.operateAll operations).2.Stands (standingAfter standing operations) := by
  induction operations generalizing worker standing with
  | nil => exact ⟨rfl, stands⟩
  | cons entry rest ih =>
      obtain ⟨now, operation⟩ := entry
      obtain ⟨reply, next⟩ := stands.operate now operation
      obtain ⟨replies, last⟩ := ih next
      exact ⟨by simp only [Worker.operateAll, reply, replies, transcript, List.map_cons], last⟩

end Worker

namespace Scenario

/-- What a reply that was awaited is shown as. A reply that does not come is a failure. -/
def Answer.ofAwaited (id : Nat) : Option Reply → Answer
  | some reply => .ofReply (.ok reply)
  | none => .failed (.disconnected id)

/-- The requests of scenarios are operations whose replies are awaited. -/
theorem ask_eq_operate (now : Nat) (worker : PreparedWorker) (request : Request) :
    (ask now worker request).1 =
        .ofAwaited worker.id (worker.operate now (.request request)).1 ∧
      (ask now worker request).2.2 = (worker.operate now (.request request)).2 := by
  unfold ask Worker.operate Worker.begin
  dsimp only
  split <;> next found => simp [found, Answer.ofAwaited]

end Scenario

end RenderFarm
