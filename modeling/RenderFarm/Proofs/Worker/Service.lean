import RenderFarm.Pool.Config
import RenderFarm.Proofs.Farm.Frame

/-!
# How a worker serves a request

`answer?` says what a request comes to for a thread that holds an engine and perhaps a scene: the
reply, and what the thread holds afterwards, or nothing if the thread panics. `await_asked` is the
whole way of a request on a farm: a worker that has nothing else to do takes it up, serves it, goes
back to rest and hands over just this reply; or its thread ends, and the request fails.
-/

namespace RenderFarm

/-- The state in which a request is served; requests for names are served in passing. -/
def Request.activity? : Request → Option Worker.State
  | .evaluate _ => some .evaluating
  | .compute row => some (.computing row)
  | .names => none

namespace Worker

variable {ε σ : Type}

/-- A worker whose thread waits for requests. -/
structure Rests (worker : Worker ε σ) (engine : ε) (scene : Option σ) : Prop where
  thread : worker.thread = .ready engine scene
  inbox : worker.inbox = []
  outbox : ∀ entry ∈ worker.outbox, entry.1 < worker.issued

/-- A worker at rest with a scene. -/
def holding (id : Nat) (engine : ε) (scene : σ) : Worker ε σ :=
  { (create id standardIdleWindow : Worker ε σ) with thread := .ready engine (some scene) }

theorem holding_rests (id : Nat) (engine : ε) (scene : σ) :
    (holding id engine scene).Rests engine (some scene) :=
  ⟨rfl, rfl, by simp [holding, create]⟩

/-- A worker whose thread stands at `thread`, with these requests left, while the reply to `ticket`
is still to come. -/
structure Engaged (worker : Worker ε σ) (thread : Thread ε σ) (inbox : List (Nat × Request))
    (ticket : Nat) : Prop where
  thread : worker.thread = thread
  inbox : worker.inbox = inbox
  outbox : ∀ entry ∈ worker.outbox, entry.1 < ticket
  issued : ticket < worker.issued

theorem Rests.send {worker : Worker ε σ} {engine : ε} {scene : Option σ}
    (rests : worker.Rests engine scene) (request : Request) :
    (worker.send request).2.Engaged (.ready engine scene) [((worker.send request).1, request)]
      (worker.send request).1 where
  thread := rests.thread
  inbox := by simp [Worker.send, listens, rests.thread, rests.inbox]
  outbox := rests.outbox
  issued := Nat.lt_succ_self _

/-- A ticket below which all replies lie has no reply yet. -/
theorem collect?_eq_none {worker : Worker ε σ} {ticket : Nat}
    (earlier : ∀ entry ∈ worker.outbox, entry.1 < ticket) : worker.collect? ticket = none := by
  have absent : worker.outbox.lookup ticket = none := by
    rw [List.lookup_eq_none_iff]
    intro entry member
    have := earlier entry member
    simp
    omega
  simp [collect?, absent]

/-- Without a reply to collect there is none. -/
theorem notMem_outbox_of_collect? {worker : Worker ε σ} {ticket : Nat}
    (absent : worker.collect? ticket = none) (reply : Reply) : (ticket, reply) ∉ worker.outbox := by
  intro member
  simp only [collect?, Option.map_eq_none_iff, List.lookup_eq_none_iff] at absent
  simpa using absent _ member

/-- A reply that is collected was sent, and only it goes. -/
theorem mem_outbox_of_collect? {worker next : Worker ε σ} {ticket : Nat} {reply : Reply}
    (found : worker.collect? ticket = some (reply, next)) :
    (ticket, reply) ∈ worker.outbox ∧
      next = { worker with outbox := worker.outbox.filter fun entry => entry.1 != ticket } := by
  simp only [collect?, Option.map_eq_some_iff, Prod.mk.injEq] at found
  obtain ⟨_, found, rfl, rfl⟩ := found
  obtain ⟨before, after, split, -⟩ := List.lookup_eq_some_iff.1 found
  exact ⟨by simp [split], rfl⟩

/-- A reply that was just sent is found, and nothing of it stays. -/
theorem collect?_post {worker : Worker ε σ} {ticket : Nat}
    (earlier : ∀ entry ∈ worker.outbox, entry.1 < ticket) (reply : Reply) :
    (worker.post ticket reply).collect? ticket = some (reply, worker) := by
  have absent := collect?_eq_none earlier
  rw [collect?, Option.map_eq_none_iff] at absent
  have posted : (worker.outbox ++ [(ticket, reply)]).lookup ticket = some reply := by
    rw [List.lookup_append, absent]
    simp
  have kept : (worker.outbox ++ [(ticket, reply)]).filter (fun entry => entry.1 != ticket) =
      worker.outbox := by
    have others : worker.outbox.filter (fun entry => entry.1 != ticket) = worker.outbox := by
      rw [List.filter_eq_self]
      intro entry member
      simpa using Nat.ne_of_lt (earlier entry member)
    rw [List.filter_append, others]
    simp
  simp only [collect?, post, posted, kept, Option.map_some]

variable [Scene σ] [Evaluator ε σ]

/-- The reply to a request, with the engine and the scene that the thread holds afterwards. -/
def answer? (engine : ε) (scene : Option σ) : Request → Option (Reply × ε × Option σ)
  | .evaluate source =>
    match (Evaluator.evaluate engine source).verdict with
    | .success next text made =>
      some (.outcome (.success text (made.map Scene.size)), next, made.or scene)
    | .failure next message => some (.outcome (.failure message), next, none)
    | .panic => none
  | .compute row =>
    match scene with
    | none => some (.colors none, engine, none)
    | some held =>
      if row < (Scene.size held).height then
        (Scene.drawRow held row).map fun drawn => (.colors (some drawn.1), engine, some drawn.2)
      else some (.colors none, engine, scene)
  | .names => (namesOf engine).map fun reply => (reply, engine, scene)

/-- What the engine writes while the request is served. -/
def writes (engine : ε) : Request → List String
  | .evaluate source => (Evaluator.evaluate engine source).writes
  | _ => []

/-- Where the thread goes with an answer. -/
def replying (ticket : Nat) : Option (Reply × ε × Option σ) → Thread ε σ
  | some (reply, engine, scene) => .replying engine scene ticket reply
  | none => .ended

theorem evaluated_eq_replying (engine : ε) (scene : Option σ) (ticket : Nat) (source : String) :
    evaluated scene ticket (Evaluator.evaluate engine source).verdict =
      replying ticket (answer? engine scene (.evaluate source)) := by
  simp only [answer?]
  cases (Evaluator.evaluate engine source).verdict <;> rfl

theorem computed_eq_replying (engine : ε) (scene : Option σ) (ticket : Nat) (row : UInt32) :
    computed engine scene ticket row =
      replying ticket (answer? engine scene (.compute row)) := by
  cases scene with
  | none => rfl
  | some held =>
      simp only [computed, answer?]
      split
      · cases Scene.drawRow held row <;> rfl
      · rfl

theorem named_eq_replying (engine : ε) (scene : Option σ) (ticket : Nat) :
    named engine scene ticket = replying ticket (answer? engine scene .names) := by
  simp only [named, answer?]
  cases namesOf engine <;> rfl

/-- A thread that has announced a request serves it in one step. -/
theorem step?_serving {worker : Worker ε σ} {engine : ε} {scene : Option σ} {ticket : Nat}
    {request : Request} (serving : worker.thread = .serving engine scene ticket request)
    (now : Nat) :
    worker.step? now =
      some (worker.proceed (replying ticket (answer? engine scene request)),
        (writes engine request).map Effect.wrote) := by
  cases request with
  | evaluate source =>
      rw [← evaluated_eq_replying]
      simp only [step?, serving, writes]
  | compute row =>
      rw [← computed_eq_replying]
      simp only [step?, serving, writes, List.map_nil]
  | names =>
      rw [← named_eq_replying]
      simp only [step?, serving, writes, List.map_nil]

/-- What a step of a thread is, by where the thread stands. -/
inductive Stepped (now : Nat) (worker : Worker ε σ) : Worker ε σ → List Effect → Prop
  | started {load : Load ε} {ticket : Nat} (thread : worker.thread = .starting load ticket) :
    Stepped now worker
      (({ worker with thread := .loading load ticket } : Worker ε σ).announce now .loading).1
      (({ worker with thread := .loading load ticket } : Worker ε σ).announce now .loading).2
  | loaded {engine : ε} {ticket : Nat} (thread : worker.thread = .loading (.engine engine) ticket) :
    Stepped now worker
      ((({ worker with thread := .ready engine none } : Worker ε σ).announce now .loaded).1.post
        ticket (.loaded none))
      (({ worker with thread := .ready engine none } : Worker ε σ).announce now .loaded).2
  | failed {message : String} {ticket : Nat}
    (thread : worker.thread = .loading (.failure message) ticket) :
    Stepped now worker (worker.retire.post ticket (.loaded (some message))) []
  | crashed {ticket : Nat} (thread : worker.thread = .loading .panic ticket) :
    Stepped now worker worker.retire []
  /-- A request is taken up and announced. -/
  | taken {engine : ε} {scene : Option σ} {ticket : Nat} {request : Request}
    {rest : List (Nat × Request)} {state : Worker.State}
    (thread : worker.thread = .ready engine scene) (inbox : worker.inbox = (ticket, request) :: rest)
    (announced : request.activity? = some state) :
    Stepped now worker
      ({ worker with inbox := rest, thread := .serving engine scene ticket request }.announce now
        state).1
      ({ worker with inbox := rest, thread := .serving engine scene ticket request }.announce now
        state).2
  /-- A request for names is answered at once. -/
  | named {engine : ε} {scene : Option σ} {ticket : Nat} {rest : List (Nat × Request)}
    {reply : Reply} (thread : worker.thread = .ready engine scene)
    (inbox : worker.inbox = (ticket, .names) :: rest) (told : namesOf engine = some reply) :
    Stepped now worker
      ({ worker with inbox := rest, thread := .ready engine scene }.post ticket reply) []
  /-- The engine panics when it is asked for its names. -/
  | stunned {engine : ε} {scene : Option σ} {ticket : Nat} {rest : List (Nat × Request)}
    (thread : worker.thread = .ready engine scene)
    (inbox : worker.inbox = (ticket, .names) :: rest) (panicked : namesOf engine = none) :
    Stepped now worker worker.retire []
  | served {engine : ε} {scene : Option σ} {ticket : Nat} {request : Request}
    (thread : worker.thread = .serving engine scene ticket request) :
    Stepped now worker (worker.proceed (replying ticket (answer? engine scene request)))
      ((writes engine request).map Effect.wrote)
  | replied {engine : ε} {scene : Option σ} {ticket : Nat} {reply : Reply}
    (thread : worker.thread = .replying engine scene ticket reply) :
    Stepped now worker
      (({ worker with thread := .ready engine scene }.announce now .idle).1.post ticket reply)
      ({ worker with thread := .ready engine scene }.announce now .idle).2

theorem stepped_of_step? {worker next : Worker ε σ} {now : Nat} {effects : List Effect}
    (stepped : worker.step? now = some (next, effects)) : Stepped now worker next effects := by
  cases stage : worker.thread with
  | absent | ended => simp [step?, stage] at stepped
  | starting load ticket =>
      simp only [step?, stage, Option.some.injEq] at stepped
      obtain ⟨rfl, rfl⟩ := stepped
      exact .started stage
  | loading load ticket =>
      cases load <;> simp only [step?, stage, Option.some.injEq] at stepped <;>
        obtain ⟨rfl, rfl⟩ := stepped
      · exact .loaded stage
      · exact .failed stage
      · exact .crashed stage
  | ready engine scene =>
      cases queue : worker.inbox with
      | nil => simp [step?, stage, queue] at stepped
      | cons entry rest =>
          obtain ⟨ticket, request⟩ := entry
          cases request with
          | evaluate | compute =>
              simp only [step?, stage, queue, Option.some.injEq] at stepped
              obtain ⟨rfl, rfl⟩ := stepped
              exact .taken stage queue rfl
          | names =>
              simp only [step?, stage, queue] at stepped
              split at stepped <;> obtain ⟨rfl, rfl⟩ := stepped
              · next told => exact .named stage queue told
              · next panicked => exact .stunned stage queue panicked
  | serving engine scene ticket request =>
      rw [step?_serving stage, Option.some.injEq, Prod.mk.injEq] at stepped
      obtain ⟨rfl, rfl⟩ := stepped
      exact .served stage
  | replying engine scene ticket reply =>
      simp only [step?, stage, Option.some.injEq] at stepped
      obtain ⟨rfl, rfl⟩ := stepped
      exact .replied stage

/-- A thread that waits for requests takes up what is queued. -/
theorem step?_ne_none_of_inbox {worker : Worker ε σ} {engine : ε} {scene : Option σ}
    (stage : worker.thread = .ready engine scene) (queued : worker.inbox ≠ []) (now : Nat) :
    worker.step? now ≠ none := by
  obtain ⟨⟨ticket, request⟩, rest, queue⟩ := List.exists_cons_of_ne_nil queued
  cases request with
  | evaluate | compute => simp [step?, stage, queue]
  | names => cases told : namesOf engine <;> simp [step?, stage, queue, told]

/-- A thread announces a request before it serves it. -/
theorem Engaged.step?_ready {worker : Worker ε σ} {engine : ε} {scene : Option σ} {ticket : Nat}
    {request : Request}
    (engaged : worker.Engaged (.ready engine scene) [(ticket, request)] ticket)
    (announced : request ≠ .names) (now : Nat) :
    ∃ next effects, worker.step? now = some (next, effects) ∧
      next.Engaged (.serving engine scene ticket request) [] ticket := by
  cases request with
  | evaluate source =>
      refine ⟨_, _, by simp only [step?, engaged.thread, engaged.inbox]; rfl, ?_⟩
      exact ⟨rfl, rfl, engaged.outbox, engaged.issued⟩
  | compute row =>
      refine ⟨_, _, by simp only [step?, engaged.thread, engaged.inbox]; rfl, ?_⟩
      exact ⟨rfl, rfl, engaged.outbox, engaged.issued⟩
  | names => exact absurd rfl announced

/-- A thread with a reply rests when it has sent it. -/
theorem Engaged.step?_replying {worker : Worker ε σ} {engine : ε} {scene : Option σ} {ticket : Nat}
    {reply : Reply} (engaged : worker.Engaged (.replying engine scene ticket reply) [] ticket)
    (now : Nat) :
    ∃ next effects last, worker.step? now = some (next, effects) ∧
      next.collect? ticket = some (reply, last) ∧ last.Rests engine scene := by
  have stepped : worker.step? now =
      some ((({ worker with thread := .ready engine scene }.announce now .idle).1.post ticket reply),
        ({ worker with thread := .ready engine scene }.announce now .idle).2) := by
    simp only [step?, engaged.thread]
  have earlier : ∀ entry ∈
      ({ worker with thread := .ready engine scene }.announce now .idle).1.outbox,
      entry.1 < ticket :=
    engaged.outbox
  refine ⟨_, _, _, stepped, collect?_post earlier reply, rfl, engaged.inbox, ?_⟩
  exact fun entry member => Nat.lt_trans (engaged.outbox entry member) engaged.issued

end Worker

namespace Farm

variable {ε σ Audience : Type} [Scene σ] [Evaluator ε σ] {listeners : Listeners ε σ Audience}
  {farm : Farm ε σ Audience} {id : Nat} {worker : Worker ε σ}

/-- A step that a thread takes while its reply is awaited. -/
theorem await_step (spare : Unheard listeners fun farm => farm.workers) {ticket : Nat}
    {thread : Thread ε σ} {inbox : List (Nat × Request)}
    (there : farm.workers[id]? = some worker) (engaged : worker.Engaged thread inbox ticket)
    {next : Worker ε σ} {effects : List Effect}
    (stepped : worker.step? farm.now = some (next, effects)) (count : Nat) :
    ∃ after, await listeners id ticket (count + 1) farm = await listeners id ticket count after ∧
      after.workers = farm.workers.setIfInBounds id next ∧ after.workers[id]? = some next := by
  have placed := spare.performAll id effects (farm.setWorker id next)
  refine ⟨effects.foldl (Farm.perform listeners id) (farm.setWorker id next), ?_, placed, ?_⟩
  · rw [await_succ there (Worker.collect?_eq_none engaged.outbox), stepped]
  · rw [placed]
    obtain ⟨inside, -⟩ := Array.getElem?_eq_some_iff.1 there
    simp only [setWorker, Array.getElem?_setIfInBounds_self_of_lt inside]

theorem await_collected {ticket : Nat} {reply : Reply} {last : Worker ε σ}
    (there : farm.workers[id]? = some worker) (found : worker.collect? ticket = some (reply, last))
    (count : Nat) :
    await listeners id ticket count farm = (.ok reply, farm.setWorker id last) := by
  unfold await
  simp only [there, found]

/-- What becomes of a request that a worker is about to take up, when nothing else is queued and
callbacks leave the workers alone. -/
theorem await_asked (spare : Unheard listeners fun farm => farm.workers) {engine : ε}
    {scene : Option σ} {ticket : Nat} {request : Request}
    (there : farm.workers[id]? = some worker)
    (engaged : worker.Engaged (.ready engine scene) [(ticket, request)] ticket)
    (announced : request ≠ .names) (count : Nat) :
    ∃ last, (await listeners id ticket (count + 3) farm).2.workers =
        farm.workers.setIfInBounds id last ∧
      match Worker.answer? engine scene request with
      | some (reply, engine', scene') =>
        (await listeners id ticket (count + 3) farm).1 = .ok reply ∧ last.Rests engine' scene'
      | none =>
        (await listeners id ticket (count + 3) farm).1 = .error (.disconnected id) ∧
          last.thread = .ended := by
  obtain ⟨first, _, stepped, serving⟩ := engaged.step?_ready announced farm.now
  obtain ⟨afterFirst, along, placed, thereFirst⟩ :=
    await_step spare there engaged stepped (count + 2)
  rw [along]
  obtain ⟨afterSecond, along, placedSecond, thereSecond⟩ :=
    await_step spare thereFirst serving (Worker.step?_serving serving.thread _) (count + 1)
  rw [placed, Array.setIfInBounds_setIfInBounds] at placedSecond
  rw [along]
  cases answer : Worker.answer? engine scene request with
  | none =>
      have ended : (first.proceed (Worker.replying ticket
          (Worker.answer? engine scene request))).thread = .ended := by
        rw [answer]
        rfl
      have silent : (first.proceed (Worker.replying ticket
          (Worker.answer? engine scene request))).collect? ticket = none := by
        rw [answer]
        exact Worker.collect?_eq_none serving.outbox
      refine ⟨_, ?_, ?_, ended⟩
      all_goals
        rw [await_succ thereSecond silent]
        simp only [Worker.step?, ended]
      exact placedSecond
  | some answered =>
      obtain ⟨reply, engine', scene'⟩ := answered
      have replying : (first.proceed (Worker.replying ticket
          (Worker.answer? engine scene request))).Engaged
          (.replying engine' scene' ticket reply) [] ticket := by
        rw [answer]
        exact ⟨rfl, serving.inbox, serving.outbox, serving.issued⟩
      obtain ⟨third, _, last, stepped, collected, rests⟩ :=
        replying.step?_replying afterSecond.now
      obtain ⟨afterThird, along, placedThird, thereThird⟩ :=
        await_step spare thereSecond replying stepped count
      rw [along, await_collected thereThird collected]
      refine ⟨last, ?_, rfl, rests⟩
      simp only [setWorker, placedThird, placedSecond, Array.setIfInBounds_setIfInBounds]

/-- A worker that rests with a scene answers with the row that the scene draws, and rests again. -/
theorem answerRow_rests (spare : Unheard listeners fun farm => farm.workers) {engine : ε} {held : σ}
    (there : farm.workers[id]? = some worker) (rests : worker.Rests engine (some held))
    {row : UInt32} (inside : row < (Scene.size held).height) {colors : List UInt32} {next : σ}
    (drawn : Scene.drawRow held row = some (colors, next)) :
    (farm.answerRow listeners id row).1 = .colors colors ∧
      ∃ last, (farm.answerRow listeners id row).2.workers = farm.workers.setIfInBounds id last ∧
        last.Rests engine (some next) := by
  have engaged := rests.send (.compute row)
  have work : (worker.send (.compute row)).2.work = 2 + 3 := by
    simp [Worker.work, engaged.inbox]
  obtain ⟨last, workers, result⟩ :=
    await_asked spare (getElem?_setWorker there _) engaged (fun same => by cases same) 2
  have answer : Worker.answer? engine (some held) (.compute row) =
      some (.colors (some colors), engine, some next) := by
    simp only [Worker.answer?, inside, if_true, drawn, Option.map_some]
  have asked : farm.request listeners id (.compute row) = _ := request_eq there (.compute row)
  rw [answer] at result
  rw [work] at asked
  cases got : await listeners id (worker.send (.compute row)).1 (2 + 3)
      (farm.setWorker id (worker.send (.compute row)).2) with
  | mk reply after =>
      rw [got] at workers result asked
      obtain ⟨rfl, rests⟩ := result
      simp only [answerRow, asked]
      refine ⟨trivial, last, ?_, rests⟩
      rw [workers, setWorker, Array.setIfInBounds_setIfInBounds]

end Farm

end RenderFarm
