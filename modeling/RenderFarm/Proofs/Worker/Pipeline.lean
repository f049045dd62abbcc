import Mathlib.Data.List.Nodup
import RenderFarm.Proofs.Worker.Responses

/-!
# Requests in flight

A worker is initialised once; from then on its caller sends requests, waits for replies in any order
and may drop the handle, while the thread works, one move of either at a time. Whatever the moves, the
worker is on its way through the one record of its requests (`Lawful`): what has been shown, written
and taken up so far, with what is still to come, is what the record tells, and so is each answer.
-/

namespace RenderFarm

open Worker

/-- A worker in use, with what its caller has sent and heard and what its thread has done. -/
structure Pipeline (ε σ : Type) where
  worker : Worker ε σ
  /-- Whether the handle is gone. Nothing can be sent then. -/
  dropped : Bool
  sent : List Request
  /-- What each wait has given, by ticket; nothing when the worker is disconnected. -/
  answers : List (Nat × Option Reply)
  /-- The requests that the thread has taken up. -/
  served : List Request
  /-- The states that the worker has moved to. -/
  states : List Worker.State
  writes : List String

namespace Pipeline

inductive Move where
  | send (request : Request)
  /-- The thread takes its next step at time `now`, if there is one. -/
  | work (now : Nat)
  /-- The caller waits for the reply to a ticket; the load has ticket 0 and the requests the next. -/
  | wait (ticket : Nat)
  | drop

variable {ε σ : Type}

/-- A worker whose thread was just started. -/
def start (id window : Nat) (load : Load ε) : Pipeline ε σ :=
  ⟨((create id window : Worker ε σ).start load).2, false, [], [], [], [], []⟩

def send (pipeline : Pipeline ε σ) (request : Request) : Pipeline ε σ :=
  if pipeline.dropped then pipeline
  else
    { pipeline with
      worker := (pipeline.worker.send request).2
      sent := pipeline.sent ++ [request] }

/-- A wait blocks while the thread has the ticket before it. Replies are waited for once. -/
def wait (pipeline : Pipeline ε σ) (ticket : Nat) : Pipeline ε σ :=
  if pipeline.worker.issued ≤ ticket ∨ ticket ∈ pipeline.answers.map Prod.fst then pipeline
  else
    match pipeline.worker.collect? ticket with
    | some (reply, next) =>
      { pipeline with worker := next, answers := pipeline.answers ++ [(ticket, some reply)] }
    | none =>
      if ticket ∈ pipeline.worker.underway then pipeline
      else { pipeline with answers := pipeline.answers ++ [(ticket, none)] }

variable [Scene σ] [Evaluator ε σ]

def work (pipeline : Pipeline ε σ) (now : Nat) : Pipeline ε σ :=
  match pipeline.worker.step? now with
  | none => pipeline
  | some (next, effects) =>
    { pipeline with
      worker := next
      served := pipeline.served ++ pipeline.worker.taking?.toList
      states := pipeline.states ++ pipeline.worker.announcement?.toList
      writes := pipeline.writes ++ effects.filterMap Effect.text? }

def step (pipeline : Pipeline ε σ) : Move → Pipeline ε σ
  | .send request => pipeline.send request
  | .work now => pipeline.work now
  | .wait ticket => pipeline.wait ticket
  | .drop => { pipeline with dropped := true }

/-- Makes moves one after the other. -/
def play (pipeline : Pipeline ε σ) (moves : List Move) : Pipeline ε σ :=
  moves.foldl step pipeline

theorem play_append (pipeline : Pipeline ε σ) (before after : List Move) :
    pipeline.play (before ++ after) = (pipeline.play before).play after :=
  List.foldl_append

/-! ## The record -/

/-- Requests with their tickets. -/
def numbered (sent : List Request) : List (Nat × Request) :=
  sent.mapIdx fun index request => (index + 1, request)

/-- The operations on a worker, with their tickets. -/
def operations (load : Load ε) (sent : List Request) : List (Nat × Operation ε) :=
  (0, .init load) :: queued (numbered sent)

omit [Scene σ] [Evaluator ε σ] in
theorem operations_concat (load : Load ε) (sent : List Request) (request : Request) :
    operations load (sent ++ [request]) =
      operations load sent ++ [(sent.length + 1, .request request)] := by
  simp [operations, queued, numbered, List.mapIdx_concat]

theorem map_snd_numbered (sent : List Request) : (numbered sent).map Prod.snd = sent :=
  List.ext_getElem (by simp [numbered]) fun _ _ _ => by simp [numbered]

omit [Scene σ] [Evaluator ε σ] in
theorem map_fst_operations (load : Load ε) (sent : List Request) :
    (operations load sent).map Prod.fst = List.range (sent.length + 1) := by
  have tickets : (queued (numbered sent) : List (Nat × Operation ε)).map Prod.fst =
      (List.range sent.length).map (· + 1) :=
    List.ext_getElem (by simp [queued, numbered]) fun _ _ _ => by simp [queued, numbered]
  rw [operations, List.map_cons, tickets, List.range_succ_eq_map]

/-- What comes of the operations, one after the other. -/
def record (load : Load ε) (sent : List Request) : List (Nat × Response) :=
  transcript (none : Standing ε σ) (operations load sent)

theorem record_concat (load : Load ε) (sent : List Request) (request : Request) :
    record load (sent ++ [request]) = record load sent ++
      transcript (standingAfter none (operations load sent)) [(sent.length + 1, .request request)] := by
  rw [record, operations_concat, transcript_append]
  rfl

theorem map_fst_record (load : Load ε) (sent : List Request) :
    (record load sent).map Prod.fst = List.range (sent.length + 1) := by
  rw [record, map_fst_transcript, map_fst_operations]

theorem nodup_told_record (load : Load ε) (sent : List Request) :
    ((told (record load sent)).map Prod.fst).Nodup := by
  refine List.Nodup.sublist (map_fst_told_sublist _) ?_
  rw [map_fst_record]
  exact List.nodup_range

/-- Each ticket has one reply at most. -/
theorem eq_of_mem_told_record {load : Load ε} {sent : List Request} {ticket : Nat}
    {reply other : Reply} (member : (ticket, reply) ∈ told (record load sent))
    (also : (ticket, other) ∈ told (record load sent)) : reply = other := by
  exact congrArg Prod.snd (List.inj_on_of_nodup_map (nodup_told_record load sent) member also rfl)

theorem le_of_mem_told_record {load : Load ε} {sent : List Request} {ticket : Nat} {reply : Reply}
    (member : (ticket, reply) ∈ told (record load sent)) : ticket ≤ sent.length := by
  have among := mem_of_mem_told _ _ member
  rw [map_fst_operations] at among
  exact Nat.lt_succ_iff.1 (List.mem_range.1 among)

/-- Whatever has happened so far, the pipeline is on its way through its record. -/
structure Lawful (load : Load ε) (pipeline : Pipeline ε σ) : Prop where
  issued : pipeline.worker.issued = pipeline.sent.length + 1
  quiet : pipeline.worker.Quiet
  current : pipeline.worker.state = pipeline.states.getLastD .created
  prospect : pipeline.worker.prospect = standingAfter none (operations load pipeline.sent)
  states : pipeline.states ++ statesOf pipeline.worker.outlook =
    statesOf (record load pipeline.sent)
  writes : pipeline.writes ++ writesOf pipeline.worker.outlook =
    writesOf (record load pipeline.sent)
  served : pipeline.served ++ servedOf pipeline.worker.outlook =
    servedOf (record load pipeline.sent)
  /-- The replies that are there or still to come are those that are not collected yet. -/
  replies : pipeline.worker.outbox ++ told pipeline.worker.outlook =
    (told (record load pipeline.sent)).filter fun entry =>
      entry.1 ∉ pipeline.answers.map Prod.fst
  answered : ∀ ticket answer, (ticket, answer) ∈ pipeline.answers → ticket ≤ pipeline.sent.length ∧
    ∀ reply, answer = some reply ↔ (ticket, reply) ∈ told (record load pipeline.sent)
  once : (pipeline.answers.map Prod.fst).Nodup

namespace Lawful

theorem start (id window : Nat) (load : Load ε) :
    (Pipeline.start id window load : Pipeline ε σ).Lawful load := by
  refine ⟨rfl, fun _ => rfl, rfl, rfl, rfl, rfl, rfl, ?_, nofun, List.nodup_nil⟩
  exact (List.filter_eq_self.2 fun _ _ => rfl).symm

variable {load : Load ε} {pipeline : Pipeline ε σ}

theorem send (lawful : pipeline.Lawful load) (request : Request) :
    (pipeline.send request).Lawful load := by
  unfold Pipeline.send
  split
  · exact lawful
  · have adds := pipeline.worker.send_adds request
    obtain ⟨replies, states, writes, served, prospect⟩ := adds
    rw [lawful.issued, lawful.prospect] at replies states writes served prospect
    have record := record_concat load pipeline.sent request
    have fresh : ∀ entry ∈ told (transcript (standingAfter none (operations load pipeline.sent))
        [(pipeline.sent.length + 1, .request request)]), entry.1 = pipeline.sent.length + 1 := by
      intro entry member
      simpa using mem_of_mem_told _ _ member
    refine ⟨?_, lawful.quiet.send request, lawful.current, ?_, ?_, ?_, ?_, ?_, ?_, lawful.once⟩
    · simp [Worker.send, lawful.issued]
    · rw [prospect, operations_concat, standingAfter_append]
    · rw [states, ← List.append_assoc, lawful.states, record, statesOf_append]
    · rw [writes, ← List.append_assoc, lawful.writes, record, writesOf_append]
    · rw [served, ← List.append_assoc, lawful.served, record, servedOf_append]
    · have unanswered : ∀ entry ∈ told (transcript
          (standingAfter none (operations load pipeline.sent))
            [(pipeline.sent.length + 1, .request request)]),
          entry.1 ∉ pipeline.answers.map Prod.fst := by
        intro entry member earlier
        obtain ⟨⟨ticket, answer⟩, answered, same⟩ := List.mem_map.1 earlier
        have below := (lawful.answered ticket answer answered).1
        have above := fresh entry member
        simp only at same
        omega
      rw [replies, ← List.append_assoc]
      simp only [record, told_append, List.filter_append]
      rw [← lawful.replies, List.filter_eq_self.2 (by simpa using unanswered)]
      rfl
    · intro ticket answer member
      obtain ⟨issued, tells⟩ := lawful.answered ticket answer member
      refine ⟨by simp; omega, fun reply => ?_⟩
      rw [tells, record, told_append, List.mem_append, or_iff_left]
      intro later
      have := fresh _ later
      simp only at this
      omega

theorem work (lawful : pipeline.Lawful load) (now : Nat) : (pipeline.work now).Lawful load := by
  unfold Pipeline.work
  cases stepped : pipeline.worker.step? now with
  | none => exact lawful
  | some taken =>
      obtain ⟨next, effects⟩ := taken
      have conserves := step_conserves stepped
      refine ⟨(step_issued stepped).trans lawful.issued, Quiet.step stepped, ?_,
        conserves.prospect.trans lawful.prospect, ?_, ?_, ?_, conserves.replies.trans lawful.replies,
        lawful.answered, lawful.once⟩
      · have machine := step_machine stepped
        have current := lawful.current
        unfold Worker.state at current ⊢
        cases announced : pipeline.worker.announcement? with
        | none => simpa [machine, announced] using current
        | some state => simp [machine, announced, StateMachine.transition]
      · rw [List.append_assoc, conserves.states, lawful.states]
      · rw [List.append_assoc, conserves.writes, lawful.writes]
      · rw [List.append_assoc, conserves.served, lawful.served]

/-- With another ticket answered, the replies to all others are still there or to come. -/
theorem filter_answers (lawful : pipeline.Lawful load) (ticket : Nat) (answer : Option Reply) :
    ((told (record load pipeline.sent)).filter fun entry =>
        entry.1 ∉ (pipeline.answers ++ [(ticket, answer)]).map Prod.fst) =
      (pipeline.worker.outbox ++ told pipeline.worker.outlook).filter fun entry =>
        entry.1 != ticket := by
  rw [lawful.replies, List.filter_filter]
  refine List.filter_congr fun entry _ => ?_
  rw [Bool.eq_iff_iff]
  simp [not_or, and_comm]

/-- A reply that is collected is the one that the record tells, and nothing else changes. -/
theorem collect (lawful : pipeline.Lawful load) {ticket : Nat} {reply : Reply} {next : Worker ε σ}
    (fresh : ticket ∉ pipeline.answers.map Prod.fst)
    (found : pipeline.worker.collect? ticket = some (reply, next)) :
    Lawful load { pipeline with
      worker := next, answers := pipeline.answers ++ [(ticket, some reply)] } := by
  obtain ⟨there, rfl⟩ := mem_outbox_of_collect? found
  have tells : (ticket, reply) ∈ told (record load pipeline.sent) := by
    have among := List.mem_append_left (told pipeline.worker.outlook) there
    rw [lawful.replies] at among
    exact (List.mem_filter.1 among).1
  -- Each ticket has one reply at most, so that this one is not to come again.
  have others : ∀ entry ∈ told pipeline.worker.outlook, entry.1 ≠ ticket := by
    have nodup := (nodup_told_record load pipeline.sent).sublist ((List.filter_sublist
      (p := fun entry => entry.1 ∉ pipeline.answers.map Prod.fst)).map Prod.fst)
    rw [← lawful.replies, List.map_append, List.nodup_append] at nodup
    exact fun entry member same => nodup.2.2 ticket (List.mem_map_of_mem there) entry.1
      (List.mem_map_of_mem member) same.symm
  refine ⟨lawful.issued, lawful.quiet, lawful.current, lawful.prospect, lawful.states,
    lawful.writes, lawful.served, ?_, ?_, ?_⟩
  · rw [lawful.filter_answers, List.filter_append]
    congr 1
    exact (List.filter_eq_self.2 fun entry member => by simpa using others entry member).symm
  · intro other answer member
    rcases List.mem_append.1 member with before | last
    · exact lawful.answered other answer before
    · obtain ⟨rfl, rfl⟩ := Prod.mk.inj (List.mem_singleton.1 last)
      refine ⟨le_of_mem_told_record tells, fun answer => ⟨?_, fun told => ?_⟩⟩
      · rintro ⟨rfl⟩
        exact tells
      · rw [eq_of_mem_told_record tells told]
  · rw [List.map_append]
    exact lawful.once.append (List.nodup_singleton _) (List.disjoint_singleton.2 fresh)

/-- A wait for a reply that does not come any more gives nothing. -/
theorem lose (lawful : pipeline.Lawful load) {ticket : Nat}
    (issued : ticket < pipeline.worker.issued) (fresh : ticket ∉ pipeline.answers.map Prod.fst)
    (absent : pipeline.worker.collect? ticket = none) (idle : ticket ∉ pipeline.worker.underway) :
    Lawful load { pipeline with answers := pipeline.answers ++ [(ticket, none)] } := by
  have others : ∀ entry ∈ pipeline.worker.outbox ++ told pipeline.worker.outlook,
      entry.1 ≠ ticket := by
    rintro ⟨_, reply⟩ member rfl
    rcases List.mem_append.1 member with there | later
    · exact notMem_outbox_of_collect? absent reply there
    · refine idle ?_
      rw [← map_fst_outlook]
      exact (map_fst_told_sublist _).subset (List.mem_map_of_mem later)
  refine ⟨lawful.issued, lawful.quiet, lawful.current, lawful.prospect, lawful.states,
    lawful.writes, lawful.served, ?_, ?_, ?_⟩
  · rw [lawful.filter_answers]
    exact (List.filter_eq_self.2 fun entry member => by simpa using others entry member).symm
  · intro other answer member
    rcases List.mem_append.1 member with before | last
    · exact lawful.answered other answer before
    · obtain ⟨rfl, rfl⟩ := Prod.mk.inj (List.mem_singleton.1 last)
      refine ⟨Nat.le_of_lt_succ (Nat.lt_of_lt_of_eq issued lawful.issued), fun reply =>
        ⟨nofun, fun tells => ?_⟩⟩
      have kept : (other, reply) ∈ (told (record load pipeline.sent)).filter fun entry =>
          entry.1 ∉ pipeline.answers.map Prod.fst :=
        List.mem_filter.2 ⟨tells, by simpa using fresh⟩
      rw [← lawful.replies] at kept
      exact (others _ kept rfl).elim
  · rw [List.map_append]
    exact lawful.once.append (List.nodup_singleton _) (List.disjoint_singleton.2 fresh)

theorem wait (lawful : pipeline.Lawful load) (ticket : Nat) :
    (pipeline.wait ticket).Lawful load := by
  unfold Pipeline.wait
  split
  · exact lawful
  · next waiting =>
    obtain ⟨issued, fresh⟩ := not_or.1 waiting
    split
    · next reply next found => exact lawful.collect fresh found
    · next absent =>
      split
      · exact lawful
      · next idle => exact lawful.lose (Nat.lt_of_not_le issued) fresh absent idle

theorem step (lawful : pipeline.Lawful load) (move : Move) : (pipeline.step move).Lawful load := by
  cases move with
  | send request => exact lawful.send request
  | work now => exact lawful.work now
  | wait ticket => exact lawful.wait ticket
  | drop => exact { lawful with }

theorem play (lawful : pipeline.Lawful load) (moves : List Move) :
    (pipeline.play moves).Lawful load := by
  induction moves generalizing pipeline with
  | nil => exact lawful
  | cons move rest ih => exact ih (lawful.step move)

end Lawful

end Pipeline

end RenderFarm
