import RenderFarm.Proofs.Worker.Retention

/-!
# Workers that evaluate one text after the other

A worker whose requests are all evaluations takes them up in the order in which they came. `Tracks`
ties what its thread holds to the texts that have arrived: those that it has served are the first of
them, the others are queued or in its hands, and the engine and the scene are what `evaluateAll` makes
of those served. It says of the tickets that a reply that is owed is under way or there.
-/

namespace RenderFarm

variable {ε σ : Type}

/-- The engine and the scene of a thread. -/
def Thread.held? : Thread ε σ → Option (ε × Option σ)
  | .ready engine scene | .serving engine scene _ _ | .replying engine scene _ _ =>
    some (engine, scene)
  | .absent | .starting .. | .loading .. | .ended => none

/-- The request that a thread has announced. -/
def Thread.request? : Thread ε σ → Option Request
  | .serving _ _ _ request => some request
  | _ => none

/-- The text that a thread evaluates in its next step. -/
def Thread.source? : Thread ε σ → Option String
  | .serving _ _ _ (.evaluate source) => some source
  | _ => none

instance (thread : Thread ε σ) : Decidable (thread = .ended) :=
  match thread with
  | .ended => isTrue rfl
  | .absent | .starting .. | .loading .. | .ready .. | .serving .. | .replying .. => isFalse nofun

namespace Worker

/-- The requests still to be served, in their order. -/
def pending (worker : Worker ε σ) : List Request :=
  worker.thread.request?.toList ++ worker.inbox.map Prod.snd

/-- The tickets of the replies still to be sent. -/
def underway (worker : Worker ε σ) : List Nat :=
  worker.thread.ticket?.toList ++ worker.inbox.map Prod.fst

/-- Nothing is under way when the thread has no request in its hands and none is queued. -/
theorem underway_eq_nil_iff {worker : Worker ε σ} :
    worker.underway = [] ↔ worker.thread.ticket? = none ∧ worker.inbox = [] := by
  simp [underway]

variable [Scene σ] [Evaluator ε σ]

/-- What is held when texts have been evaluated one after the other, unless one of them panics. -/
def evaluateAll (held : ε × Option σ) (sources : List String) : Option (ε × Option σ) :=
  sources.foldlM (fun held source => (answer? held.1 held.2 (.evaluate source)).map Prod.snd) held

theorem evaluateAll_append (held : ε × Option σ) (sources : List String) (source : String) :
    evaluateAll held (sources ++ [source]) = (evaluateAll held sources).bind fun held =>
      (answer? held.1 held.2 (.evaluate source)).map Prod.snd := by
  simp only [evaluateAll, List.foldlM_append, List.foldlM_cons, List.foldlM_nil, bind_pure]
  rfl

/-- The reply to an evaluation is an outcome. -/
theorem outcome_of_answer? {engine engine' : ε} {scene scene' : Option σ} {source : String}
    {reply : Reply}
    (answer : answer? engine scene (.evaluate source) = some (reply, engine', scene')) :
    ∃ outcome, reply = .outcome outcome := by
  simp only [answer?] at answer
  split at answer <;> cases answer <;> exact ⟨_, rfl⟩

/-- A worker that held `base` at first and has been sent the texts `arrived`, of which it has served
`served`, and that owes replies to the tickets of `owed`. -/
structure Tracks (base : ε × Option σ) (arrived served : List String) (owed : Nat → Prop)
    (worker : Worker ε σ) : Prop where
  held : ∃ held, worker.thread.held? = some held ∧ evaluateAll base served = some held
  order : arrived.map Request.evaluate = served.map Request.evaluate ++ worker.pending
  sorted : worker.underway.Pairwise (· < ·)
  issued : ∀ ticket ∈ worker.underway, ticket < worker.issued
  sent : ∀ entry ∈ worker.outbox, entry.1 < worker.issued ∧ entry.1 ∉ worker.underway
  expected : ∀ ticket ∈ worker.underway, owed ticket
  answered : ∀ ticket, owed ticket →
    ticket ∈ worker.underway ∨ ∃ reply, (ticket, reply) ∈ worker.outbox
  replying : ∀ engine scene ticket reply, worker.thread = .replying engine scene ticket reply →
    ∃ outcome, reply = .outcome outcome
  outcomes : ∀ ticket reply, owed ticket → (ticket, reply) ∈ worker.outbox →
    ∃ outcome, reply = .outcome outcome

namespace Tracks

variable {base : ε × Option σ} {arrived served : List String} {owed : Nat → Prop}
  {worker next : Worker ε σ}

/-- All requests of the worker are evaluations. -/
theorem exists_source (tracks : worker.Tracks base arrived served owed) {request : Request}
    (member : request ∈ worker.pending) : ∃ source, request = .evaluate source := by
  have among : request ∈ arrived.map Request.evaluate := by
    rw [tracks.order]
    exact List.mem_append_right _ member
  obtain ⟨source, -, rfl⟩ := List.mem_map.1 among
  exact ⟨source, rfl⟩

/-- A ticket that is owed was handed out. -/
theorem lt_issued (tracks : worker.Tracks base arrived served owed) {ticket : Nat}
    (owes : owed ticket) : ticket < worker.issued := by
  rcases tracks.answered ticket owes with underway | ⟨reply, member⟩
  · exact tracks.issued ticket underway
  · exact (tracks.sent _ member).1

/-- A text is queued behind all others, and its ticket is owed. -/
theorem send (tracks : worker.Tracks base arrived served owed) (source : String)
    {owed' : Nat → Prop} (owing : ∀ ticket, owed' ticket ↔ owed ticket ∨ ticket = worker.issued) :
    (worker.send (.evaluate source)).2.Tracks base (arrived ++ [source]) served owed' := by
  obtain ⟨held, holds, made⟩ := tracks.held
  have listens : worker.listens = true := by
    unfold Thread.held? at holds
    unfold Worker.listens
    split at holds <;> simp_all
  have inbox : (worker.send (.evaluate source)).2.inbox =
      worker.inbox ++ [(worker.issued, .evaluate source)] := by
    simp only [Worker.send, listens, if_true]
  have underway : (worker.send (.evaluate source)).2.underway =
      worker.underway ++ [worker.issued] := by
    simp only [Worker.underway, inbox, List.map_append, ← List.append_assoc]
    rfl
  have stale : ∀ reply, (worker.issued, reply) ∉ worker.outbox :=
    fun reply member => Nat.lt_irrefl _ (tracks.sent _ member).1
  refine ⟨⟨held, holds, made⟩, ?_, ?_, ?_, ?_, ?_, ?_, tracks.replying, ?_⟩
  · simp only [Worker.pending, inbox, List.map_append, ← List.append_assoc, tracks.order]
    rfl
  · rw [underway, List.pairwise_append]
    refine ⟨tracks.sorted, List.pairwise_singleton _ _, fun ticket member other last => ?_⟩
    rw [List.mem_singleton.1 last]
    exact tracks.issued ticket member
  · intro ticket member
    rw [underway, List.mem_append, List.mem_singleton] at member
    rcases member with before | rfl
    · exact Nat.lt_succ_of_lt (tracks.issued ticket before)
    · exact Nat.lt_succ_self _
  · intro entry member
    obtain ⟨earlier, apart⟩ := tracks.sent entry member
    rw [underway, List.mem_append, List.mem_singleton, not_or]
    exact ⟨Nat.lt_succ_of_lt earlier, apart, Nat.ne_of_lt earlier⟩
  · intro ticket member
    rw [underway, List.mem_append, List.mem_singleton] at member
    exact (owing ticket).2 (member.imp_left (tracks.expected ticket))
  · intro ticket owes
    rw [underway, List.mem_append, List.mem_singleton]
    rcases (owing ticket).1 owes with before | rfl
    · exact (tracks.answered ticket before).imp_left .inl
    · exact .inl (.inr rfl)
  · intro ticket reply owes member
    rcases (owing ticket).1 owes with before | rfl
    · exact tracks.outcomes ticket reply before member
    · exact (stale reply member).elim

/-- A step of the thread, which serves the text in its hands if there is one. -/
theorem step (tracks : worker.Tracks base arrived served owed) {now : Nat} {effects : List Effect}
    (stepped : worker.step? now = some (next, effects)) :
    next.thread = .ended ∨
      next.Tracks base arrived (served ++ worker.thread.source?.toList) owed := by
  obtain ⟨held, holds, made⟩ := tracks.held
  have order := tracks.order
  have sorted := tracks.sorted
  have issued := tracks.issued
  have sent := tracks.sent
  have expected := tracks.expected
  have answered := tracks.answered
  cases stepped_of_step? stepped with
  | started stage | loaded stage | failed stage | crashed stage =>
      simp [stage, Thread.held?] at holds
  | named stage queue | stunned stage queue =>
      have first : Request.names ∈ worker.pending := by simp [Worker.pending, queue]
      obtain ⟨source, same⟩ := tracks.exists_source first
      cases same
  | @taken engine scene ticket request rest state stage queue announced =>
      obtain rfl : (engine, scene) = held := by simpa [stage, Thread.held?] using holds
      simp only [Worker.pending, stage, queue] at order
      simp only [Worker.underway, stage, queue] at sorted issued sent expected answered
      right
      simp only [stage, Thread.source?, Option.toList_none, List.append_nil]
      refine ⟨⟨_, rfl, made⟩, order, sorted, issued, sent, expected, answered, ?_,
        tracks.outcomes⟩
      intro _ _ _ _ thread
      cases thread
  | @served engine scene ticket request stage =>
      obtain rfl : (engine, scene) = held := by simpa [stage, Thread.held?] using holds
      have first : request ∈ worker.pending := by simp [Worker.pending, stage, Thread.request?]
      obtain ⟨source, rfl⟩ := tracks.exists_source first
      cases answer : answer? engine scene (.evaluate source) with
      | none => exact .inl rfl
      | some result =>
          obtain ⟨reply, engine', scene'⟩ := result
          simp only [Worker.pending, stage] at order
          simp only [Worker.underway, stage] at sorted issued sent expected answered
          right
          simp only [stage, Thread.source?, Option.toList_some]
          refine ⟨⟨(engine', scene'), rfl, ?_⟩, ?_, sorted, issued, sent, expected, answered, ?_,
            tracks.outcomes⟩
          · rw [evaluateAll_append, made]
            simp [answer]
          · rw [order, List.map_append, List.append_assoc]
            rfl
          · intro _ _ _ _ thread
            cases thread
            exact outcome_of_answer? answer
  | @replied engine scene ticket reply stage =>
      obtain rfl : (engine, scene) = held := by simpa [stage, Thread.held?] using holds
      obtain ⟨outcome, rfl⟩ := tracks.replying _ _ _ _ stage
      simp only [Worker.pending, stage] at order
      simp only [Worker.underway, stage, Thread.ticket?, Option.toList_some, List.singleton_append,
        List.pairwise_cons, List.mem_cons, forall_eq_or_imp]
        at sorted issued sent expected answered
      right
      simp only [stage, Thread.source?, Option.toList_none, List.append_nil]
      refine ⟨⟨_, rfl, made⟩, order, sorted.2, issued.2, ?_, expected.2, ?_, ?_, ?_⟩
      · intro entry member
        rcases List.mem_append.1 member with before | last
        · exact ⟨(sent entry before).1, fun later => (sent entry before).2 (.inr later)⟩
        · rw [List.mem_singleton.1 last]
          exact ⟨issued.1, fun later => Nat.lt_irrefl _ (sorted.1 ticket later)⟩
      · intro other owes
        rcases answered other owes with (rfl | later) | ⟨reply, member⟩
        · exact .inr ⟨_, List.mem_append_right _ (.head _)⟩
        · exact .inl later
        · exact .inr ⟨reply, List.mem_append_left _ member⟩
      · intro _ _ _ _ thread
        cases thread
      · intro other reply owes member
        rcases List.mem_append.1 member with before | last
        · exact tracks.outcomes other reply owes before
        · exact ⟨outcome, (Prod.mk.inj (List.mem_singleton.1 last)).2⟩

/-- What is collected for a ticket that is owed is an outcome, and the ticket is owed no more. -/
theorem collect? (tracks : worker.Tracks base arrived served owed) {ticket : Nat} {reply : Reply}
    (owes : owed ticket) (found : worker.collect? ticket = some (reply, next)) {owed' : Nat → Prop}
    (owing : ∀ other, owed' other ↔ owed other ∧ other ≠ ticket) :
    (∃ outcome, reply = .outcome outcome) ∧ next.Tracks base arrived served owed' := by
  obtain ⟨there, rfl⟩ := mem_outbox_of_collect? found
  have kept : ∀ entry ∈ worker.outbox.filter (fun entry => entry.1 != ticket),
      entry ∈ worker.outbox :=
    fun entry member => (List.mem_filter.1 member).1
  refine ⟨tracks.outcomes ticket reply owes there, tracks.held, tracks.order, tracks.sorted,
    tracks.issued, fun entry member => tracks.sent entry (kept entry member), ?_, ?_,
    tracks.replying,
    fun other reply owes member => tracks.outcomes other reply ((owing other).1 owes).1
      (kept _ member)⟩
  · intro other member
    refine (owing other).2 ⟨tracks.expected other member, ?_⟩
    rintro rfl
    exact (tracks.sent _ there).2 member
  · intro other owes
    obtain ⟨owed, different⟩ := (owing other).1 owes
    rcases tracks.answered other owed with underway | ⟨reply, member⟩
    · exact .inl underway
    · exact .inr ⟨reply, List.mem_filter.2 ⟨member, by simpa using different⟩⟩

/-- As long as a reply that is owed is not there, the thread has something to do. -/
theorem step?_isSome (tracks : worker.Tracks base arrived served owed) {ticket : Nat}
    (owes : owed ticket) (absent : worker.collect? ticket = none) (now : Nat) :
    (worker.step? now).isSome := by
  have underway : ticket ∈ worker.underway := by
    refine (tracks.answered ticket owes).resolve_right ?_
    rintro ⟨reply, member⟩
    exact notMem_outbox_of_collect? absent reply member
  obtain ⟨held, holds, -⟩ := tracks.held
  cases stage : worker.thread with
  | absent | ended | starting | loading => simp [stage, Thread.held?] at holds
  | ready engine scene =>
      cases queue : worker.inbox with
      | nil => simp [Worker.underway, stage, queue, Thread.ticket?] at underway
      | cons entry rest =>
          obtain ⟨other, request⟩ := entry
          have first : request ∈ worker.pending := by simp [Worker.pending, queue]
          obtain ⟨source, rfl⟩ := tracks.exists_source first
          simp [step?, stage, queue]
  | serving engine scene other request => simp [step?_serving stage]
  | replying engine scene other reply => simp [step?, stage]

/-- A worker that owes nothing rests, and has served all that arrived. -/
theorem rests (tracks : worker.Tracks base arrived served owed) (free : ∀ ticket, ¬owed ticket) :
    served = arrived ∧ ∃ engine scene, worker.Rests engine scene ∧
      evaluateAll base served = some (engine, scene) := by
  obtain ⟨⟨engine, scene⟩, holds, made⟩ := tracks.held
  have idle : worker.underway = [] :=
    List.eq_nil_iff_forall_not_mem.2 fun ticket member => free ticket (tracks.expected ticket member)
  rw [Worker.underway, List.append_eq_nil_iff, List.map_eq_nil_iff] at idle
  have thread : worker.thread = .ready engine scene := by
    unfold Thread.held? at holds
    split at holds <;> simp_all [Thread.ticket?]
  refine ⟨?_, engine, scene, ⟨thread, idle.2, fun entry member => (tracks.sent entry member).1⟩,
    made⟩
  have order := tracks.order
  simp only [Worker.pending, thread, Thread.request?, idle.2] at order
  rw [Option.toList_none, List.map_nil, List.append_nil, List.append_nil,
    List.map_inj_right fun _ _ same => Request.evaluate.inj same] at order
  exact order.symm

end Tracks

/-- A worker at rest has been sent nothing yet and owes nothing. -/
theorem Rests.tracks {worker : Worker ε σ} {engine : ε} {scene : Option σ}
    (rests : worker.Rests engine scene) {owed : Nat → Prop} (free : ∀ ticket, ¬owed ticket) :
    worker.Tracks (engine, scene) [] [] owed := by
  have idle : worker.underway = [] := by
    simp [underway, rests.thread, rests.inbox, Thread.ticket?]
  refine ⟨⟨_, by simp [rests.thread, Thread.held?], rfl⟩, ?_, by simp [idle], by simp [idle],
    fun entry member => ⟨rests.outbox entry member, by simp [idle]⟩, by simp [idle],
    fun ticket owes => (free ticket owes).elim, by simp [rests.thread],
    fun ticket _ owes => (free ticket owes).elim⟩
  simp [pending, rests.thread, rests.inbox, Thread.request?]

end Worker

end RenderFarm
