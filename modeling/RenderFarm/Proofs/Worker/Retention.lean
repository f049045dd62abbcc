import RenderFarm.Language.Evaluation
import RenderFarm.Proofs.Worker.Service

/-!
# Workers that keep their scene

A worker retains a height when its thread holds a scene at least that high and no evaluation, which
alone could take the scene away, is queued or served. Rows below the height that such a worker is
asked for come back with their colors, unless its thread ends (`answerRow_ne_noScene`).
-/

namespace RenderFarm

/-- Dimensions are fixed for the lifetime of a scene. -/
def Scene.Steady (σ : Type) [Scene σ] : Prop :=
  ∀ (scene : σ) row colors next, Scene.drawRow scene row = some (colors, next) →
    Scene.size next = Scene.size scene

/-- A picture stays what it is when it is drawn. -/
theorem Language.Picture.steady : Scene.Steady Picture := by
  intro picture row colors next drawn
  simp only [Scene.drawRow, Option.map_eq_some_iff, Prod.mk.injEq] at drawn
  obtain ⟨_, _, _, rfl⟩ := drawn
  rfl

def Request.isEvaluation : Request → Bool
  | .evaluate _ => true
  | .compute _ | .names => false

/-- Whether the colors of a row came. -/
def Reply.isColored : Reply → Bool
  | .colors (some _) => true
  | _ => false

variable {ε σ Audience : Type} [Scene σ]

/-- A thread without a scene of that height at least is one that takes up no request any more. -/
def Thread.Keeps (height : UInt32) : Thread ε σ → Prop
  | .absent | .ended => True
  | .starting .. | .loading .. => False
  | .ready _ scene | .replying _ scene _ _ =>
    ∃ held ∈ scene, height ≤ (Scene.size held).height
  | .serving _ scene _ request =>
    request.isEvaluation = false ∧ ∃ held ∈ scene, height ≤ (Scene.size held).height

instance (height : UInt32) (thread : Thread ε σ) : Decidable (thread.Keeps height) :=
  match thread with
  | .absent | .ended => inferInstanceAs (Decidable True)
  | .starting .. | .loading .. => inferInstanceAs (Decidable False)
  | .ready _ scene | .replying _ scene _ _ =>
    inferInstanceAs (Decidable (∃ held ∈ scene, height ≤ (Scene.size held).height))
  | .serving _ scene _ request =>
    inferInstanceAs (Decidable (request.isEvaluation = false ∧
      ∃ held ∈ scene, height ≤ (Scene.size held).height))

/-- The ticket that a thread works on. -/
def Thread.ticket? : Thread ε σ → Option Nat
  | .starting _ ticket | .loading _ ticket | .serving _ _ ticket _ | .replying _ _ ticket _ =>
    some ticket
  | .absent | .ready _ _ | .ended => none

namespace Worker

structure Retains (worker : Worker ε σ) (height : UInt32) : Prop where
  thread : worker.thread.Keeps height
  inbox : ∀ entry ∈ worker.inbox, entry.2.isEvaluation = false
  queued : ∀ entry ∈ worker.inbox, entry.1 < worker.issued
  current : ∀ ticket ∈ worker.thread.ticket?, ticket < worker.issued
  sent : ∀ entry ∈ worker.outbox, entry.1 < worker.issued

instance (worker : Worker ε σ) (height : UInt32) : Decidable (worker.Retains height) :=
  decidable_of_iff (worker.thread.Keeps height ∧
      (∀ entry ∈ worker.inbox, entry.2.isEvaluation = false) ∧
      (∀ entry ∈ worker.inbox, entry.1 < worker.issued) ∧
      (∀ ticket ∈ worker.thread.ticket?, ticket < worker.issued) ∧
      ∀ entry ∈ worker.outbox, entry.1 < worker.issued)
    ⟨fun ⟨thread, inbox, queued, current, sent⟩ => ⟨thread, inbox, queued, current, sent⟩,
      fun retains => ⟨retains.thread, retains.inbox, retains.queued, retains.current, retains.sent⟩⟩

/-- A worker that retains a height and, under a ticket, has nothing but the request for a row or its
colors. -/
structure Owes (worker : Worker ε σ) (height : UInt32) (ticket : Nat) (row : UInt32) : Prop where
  thread : worker.thread.Keeps height
  inbox : ∀ entry ∈ worker.inbox, entry.2.isEvaluation = false
  queued : ∀ request, (ticket, request) ∈ worker.inbox → request = .compute row
  serving : ∀ engine scene request, worker.thread = .serving engine scene ticket request →
    request = .compute row
  replying : ∀ engine scene reply, worker.thread = .replying engine scene ticket reply →
    reply.isColored
  sent : ∀ reply, (ticket, reply) ∈ worker.outbox → reply.isColored

theorem Retains.send {worker : Worker ε σ} {height : UInt32} (retains : worker.Retains height)
    (row : UInt32) :
    (worker.send (.compute row)).2.Owes height (worker.send (.compute row)).1 row where
  thread := retains.thread
  inbox := by
    intro entry member
    simp only [Worker.send] at member
    split at member
    · rcases List.mem_append.1 member with inside | last
      · exact retains.inbox entry inside
      · rw [List.mem_singleton.1 last]
        rfl
    · exact retains.inbox entry member
  queued := by
    intro request member
    simp only [Worker.send] at member
    split at member
    · rcases List.mem_append.1 member with inside | last
      · exact absurd (retains.queued _ inside) (Nat.lt_irrefl _)
      · exact (Prod.mk.inj (List.mem_singleton.1 last)).2
    · exact absurd (retains.queued _ member) (Nat.lt_irrefl _)
  serving := fun engine scene request thread => by
    have := retains.current worker.issued (by simp_all [Thread.ticket?, Worker.send])
    omega
  replying := fun engine scene reply thread => by
    have := retains.current worker.issued (by simp_all [Thread.ticket?, Worker.send])
    omega
  sent := fun reply member => absurd (retains.sent _ member) (Nat.lt_irrefl _)

theorem Owes.collect? {worker last : Worker ε σ} {height : UInt32} {ticket : Nat} {row : UInt32}
    {reply : Reply} (owes : worker.Owes height ticket row)
    (found : worker.collect? ticket = some (reply, last)) : reply.isColored :=
  owes.sent _ (mem_outbox_of_collect? found).1

/-- A worker whose thread has ended owes no more than it has sent. -/
theorem Owes.retire {worker : Worker ε σ} {height : UInt32} {ticket : Nat} {row : UInt32}
    (owes : worker.Owes height ticket row) : worker.retire.Owes height ticket row :=
  ⟨trivial, by simp [Worker.retire], by simp [Worker.retire], by simp [Worker.retire],
    by simp [Worker.retire], owes.sent⟩

variable [Evaluator ε σ]

/-- A step of the thread keeps what it owes, and nothing is written meanwhile. -/
theorem Owes.step {worker next : Worker ε σ} {height : UInt32} {ticket : Nat} {row : UInt32}
    (steady : Scene.Steady σ) (below : row < height) (owes : worker.Owes height ticket row)
    {now : Nat} {effects : List Effect} (stepped : worker.step? now = some (next, effects)) :
    next.Owes height ticket row ∧ ∀ effect ∈ effects, ∃ report, effect = .reported report := by
  have keeps := owes.thread
  have inbox := owes.inbox
  have queued := owes.queued
  cases stepped_of_step? stepped with
  | started stage | loaded stage | failed stage | crashed stage =>
      rw [stage] at keeps
      exact keeps.elim
  | @taken engine scene other request rest state stage queue announced =>
      rw [stage] at keeps
      rw [queue] at inbox queued
      refine ⟨⟨⟨inbox (other, request) (.head _), keeps⟩,
        fun entry member => inbox entry (.tail _ member),
        fun request member => queued request (.tail _ member), ?_, ?_, owes.sent⟩, ?_⟩
      · intro engine' scene' request' thread
        cases thread
        exact queued _ (.head _)
      · intro engine' scene' reply thread
        cases thread
      · simp [announce]
  | stunned => exact ⟨owes.retire, by simp⟩
  | @named engine scene other rest reply stage queue =>
      rw [stage] at keeps
      rw [queue] at inbox queued
      have different : ticket ≠ other := by
        rintro rfl
        cases queued _ (.head _)
      refine ⟨⟨keeps, fun entry member => inbox entry (.tail _ member),
        fun request member => queued request (.tail _ member), ?_, ?_, ?_⟩, by simp⟩
      · simp [post]
      · simp [post]
      · intro reply member
        simp only [post, List.mem_append, List.mem_singleton, Prod.mk.injEq, different, false_and,
          or_false] at member
        exact owes.sent _ member
  | @served engine scene other request stage =>
      rw [stage] at keeps
      obtain ⟨plain, held, member, high⟩ := keeps
      cases member
      have answered : ∀ (scene : σ) (reply : Reply),
          height ≤ (Scene.size scene).height → (ticket = other → reply.isColored) →
          { worker with thread := .replying engine (some scene) other reply }.Owes height
            ticket row := by
        intro scene reply high colored
        refine ⟨⟨scene, rfl, high⟩, owes.inbox, owes.queued, ?_, ?_, owes.sent⟩
        · intro engine' scene' request' thread
          cases thread
        · intro engine' scene' reply' thread
          cases thread
          exact colored rfl
      cases request with
      | evaluate source => cases plain
      | names =>
          refine ⟨?_, by simp [writes]⟩
          simp only [answer?]
          cases told : namesOf engine with
          | none => exact owes.retire
          | some reply =>
              refine answered _ _ high ?_
              rintro rfl
              cases owes.serving _ _ _ stage
      | compute asked =>
          refine ⟨?_, by simp [writes]⟩
          simp only [answer?]
          by_cases inside : asked < (Scene.size held).height
          · rw [if_pos inside]
            cases drawn : Scene.drawRow held asked with
            | none => exact owes.retire
            | some result =>
                have same := steady held asked result.1 result.2 drawn
                exact answered _ _ (same ▸ high) fun _ => rfl
          · rw [if_neg inside]
            refine answered _ _ high ?_
            -- The row that is owed lies within the scene.
            rintro rfl
            cases owes.serving _ _ _ stage
            exact absurd (UInt32.lt_of_lt_of_le below high) inside
  | @replied engine scene other reply stage =>
      rw [stage] at keeps
      refine ⟨⟨keeps, owes.inbox, owes.queued, ?_, ?_, ?_⟩, by simp [announce]⟩
      · simp [post, announce]
      · simp [post, announce]
      · intro reply' member
        simp only [post, announce, List.mem_append, List.mem_singleton, Prod.mk.injEq] at member
        rcases member with inside | ⟨rfl, rfl⟩
        · exact owes.sent _ inside
        · exact owes.replying _ _ _ stage

end Worker

namespace Farm

variable [Evaluator ε σ] {listeners : Listeners ε σ Audience}

/-- What is received for a row owed is its colors. -/
theorem await_owed (steady : Scene.Steady σ) {height row : UInt32} (below : row < height)
    {id ticket : Nat} (count : Nat) {farm : Farm ε σ Audience} {worker : Worker ε σ}
    (there : farm.workers[id]? = some worker) (owes : worker.Owes height ticket row)
    {reply : Reply} (received : (await listeners id ticket count farm).1 = .ok reply) :
    reply.isColored := by
  induction count generalizing farm worker with
  | zero =>
      cases found : worker.collect? ticket with
      | none => simp [await, there, found] at received
      | some collected =>
          obtain ⟨got, last⟩ := collected
          simp only [await, there, found, Except.ok.injEq] at received
          subst received
          exact owes.collect? found
  | succ count ih =>
      cases found : worker.collect? ticket with
      | some collected =>
          obtain ⟨got, last⟩ := collected
          simp only [await, there, found, Except.ok.injEq] at received
          subst received
          exact owes.collect? found
      | none =>
          rw [await_succ there found] at received
          cases stepped : worker.step? farm.now with
          | none => simp [stepped] at received
          | some taken =>
              obtain ⟨next, effects⟩ := taken
              rw [stepped] at received
              obtain ⟨still, reports⟩ := owes.step steady below stepped
              refine ih ?_ still received
              rw [workers_reports id reports]
              exact getElem?_setWorker there next

/-- A worker that retains a height is not without a scene for a row below it. -/
theorem answerRow_ne_noScene (steady : Scene.Steady σ) {height row : UInt32} (below : row < height)
    {id : Nat} {farm : Farm ε σ Audience}
    (retains : ∀ worker ∈ farm.workers[id]?, worker.Retains height) :
    (farm.answerRow listeners id row).1 ≠ .noScene := by
  cases there : farm.workers[id]? with
  | none => simp [answerRow, request, send, there]
  | some worker =>
      have owes := (retains worker there).send row
      unfold answerRow
      rw [request_eq there]
      split
      · exact fun same => by cases same
      · next reply _ uncolored got =>
          -- What was received was colors, which is the case above.
          have received : (await listeners id (worker.send (.compute row)).1
              (worker.send (.compute row)).2.work
              (farm.setWorker id (worker.send (.compute row)).2)).1 = .ok reply := by rw [got]
          have colored := await_owed steady below _ (getElem?_setWorker there _) owes received
          unfold Reply.isColored at colored
          split at colored
          · exact (uncolored _ rfl).elim
          · cases colored
      · exact fun same => by cases same

end Farm

end RenderFarm
