import RenderFarm.Proofs.EvaluateCall.Moves
import RenderFarm.Proofs.Evaluations.Outcomes

/-!
# What a call has worker 0 write

All that worker 0 writes around a call is settled when the call begins (`Farm.output`): what it still owes
to earlier requests, and then what the text makes its engine write. `HasWritten` says how much of it is
written at a moment. Worker 0 has not been asked yet, or what is left comes before its reply, or nothing is
left; a call that waits for it no longer is in the last case, be it that the reply has come or that the
thread of the worker has ended. `InProgress` adds where the call stands among the answers. Every step of the
call and of a worker keeps it.
-/

namespace RenderFarm

variable {ε σ Audience : Type}

/-- Whether an event is one of those that an evaluation publishes. -/
def Event.isOfEvaluation : Event → Bool
  | .evalError _ | .stdoutWritten _ => true
  | .sceneLoaded .. | .lineComputed .. | .sceneRendered .. => false

/-- A call that has its first failure to publish waits for none any more. -/
theorem Call.Phase.exists_of_failure? {phase : Call.Phase} {message : String}
    (failed : phase.failure? = some message) :
    ∃ primary others, phase = .waiting [] (primary :: others) ∧
      Farm.firstError (primary :: others) = some message := by
  unfold failure? at failed
  split at failed
  · next outcomes =>
    cases outcomes with
    | nil => cases failed
    | cons primary others => exact ⟨primary, others, rfl, failed⟩
  all_goals cases failed

variable [Scene σ] [Evaluator ε σ]

/-- All that worker 0 will write when it is asked to evaluate a text. -/
def Farm.output (farm : Farm ε σ Audience) (source : String) : List String :=
  (farm.workers[0]?.map fun worker => worker.output source).getD []

namespace EvaluateCall

open Evaluations (Took Gathers)

/-- A worker that writes `whole` around a call to worker 0 has written `said` of it. -/
inductive HasWritten (whole : List String) (call : Call) (said : List String) (worker : Worker ε σ) : Prop
  | unsent (later : 0 ∈ call.unsent) (rest : said ++ worker.output call.source = whole)
  | asked {ticket : Nat} (waits : (0, ticket) ∈ call.tickets) (closes : worker.Closes ticket)
    (rest : said ++ Worker.writesOf worker.outlook = whole)
  | spent (sent : 0 ∉ call.unsent) (idle : worker.outlook = []) (all : said = whole)

section HasWritten

variable {whole said : List String} {source : String} {call : Call} {worker next : Worker ε σ}

/-- What is written next is the next of all that is written. -/
theorem HasWritten.prefix_texts (written : HasWritten whole call said worker) :
    said ++ worker.texts <+: whole := by
  have first := Worker.prefix_texts worker
  cases written with
  | unsent later rest =>
      rw [← rest, List.prefix_append_right_inj]
      exact first.trans (List.prefix_append _ _)
  | asked waits closes rest => rwa [← rest, List.prefix_append_right_inj]
  | spent sent idle all => simp [Worker.texts_eq_nil_of_outlook idle, all]

/-- As long as something is to be written, worker 0 is still to be asked or waited for. -/
theorem HasWritten.attends (written : HasWritten whole call said worker) (writes : worker.texts ≠ []) :
    0 ∈ call.unsent ∨ ∃ ticket, (0, ticket) ∈ call.tickets := by
  cases written with
  | unsent later => exact .inl later
  | asked waits => exact .inr ⟨_, waits⟩
  | spent sent idle => exact absurd (Worker.texts_eq_nil_of_outlook idle) writes

/-- A call that has no more to do with the workers finds all of it written. -/
theorem HasWritten.complete (written : HasWritten whole call said worker) (sent : call.unsent = [])
    (waited : call.tickets = []) : said = whole ∧ worker.texts = [] := by
  cases written with
  | unsent later => simp [sent] at later
  | asked waits => simp [waited] at waits
  | spent _ idle all => exact ⟨all, Worker.texts_eq_nil_of_outlook idle⟩

theorem HasWritten.step (written : HasWritten whole call said worker) {now : Nat} {effects : List Effect}
    (stepped : worker.step? now = some (next, effects)) :
    HasWritten whole call (said ++ worker.texts) next := by
  cases written with
  | unsent later rest =>
      exact .unsent later (by rw [List.append_assoc, Worker.output_step stepped, rest])
  | asked waits closes rest =>
      exact .asked waits (closes.step stepped)
        (by rw [List.append_assoc, Worker.writesOf_step stepped, rest])
  | spent sent idle all =>
      obtain ⟨ticket, response, others, outlook, -⟩ := Worker.step_outlook stepped
      rw [idle] at outlook
      cases outlook

variable {listeners : Listeners ε σ Audience} {farm after : Farm ε σ Audience}
  {answers : Nat → Option Outcome} {reached : List Nat} {phase phase' : Call.Phase}

/-- A call does not touch the threads of the workers. -/
theorem thread_of_took (spare : Farm.Unheard listeners fun farm => farm.workers)
    (took : Took listeners source farm phase phase' after) {id : Nat}
    (there : farm.workers[id]? = some worker) :
    Farm.Has after.workers id fun later => later.thread = worker.thread := by
  have before : Farm.Has farm.workers id fun later => later.thread = worker.thread :=
    ⟨worker, there, rfl⟩
  cases took with
  | stayed | turned | missed => exact before
  | sent found => exact before.set found fun same => same
  | received found got =>
      obtain ⟨-, rfl⟩ := Worker.mem_outbox_of_collect? got
      exact before.set found fun same => same
  | told primary others =>
      rw [Gathers.workers_told spare]
      exact before

/-- Nothing changes for worker 0 when the call deals with another. -/
theorem HasWritten.congr {call' : Call} (written : HasWritten whole call said worker)
    (source : call'.source = call.source) (unsent : 0 ∈ call'.unsent ↔ 0 ∈ call.unsent)
    (tickets : ∀ ticket, (0, ticket) ∈ call.tickets → (0, ticket) ∈ call'.tickets) :
    HasWritten whole call' said worker := by
  cases written with
  | unsent later rest => exact .unsent (unsent.2 later) (source ▸ rest)
  | asked waits closes rest => exact .asked (tickets _ waits) closes rest
  | spent sent idle all => exact .spent (fun later => sent (unsent.1 later)) idle all

theorem HasWritten.take_sent {id : Nat} {unsent : List Nat} {tickets : List (Nat × Nat)}
    (gathers : Gathers answers source farm.workers reached (.sending (id :: unsent) tickets))
    {own : Worker ε σ} (found : farm.workers[id]? = some own)
    (written : Farm.Has farm.workers 0 (HasWritten whole ⟨source, .sending (id :: unsent) tickets⟩ said)) :
    Farm.Has (farm.setWorker id (own.send (.evaluate source)).2).workers 0
      (HasWritten whole ⟨source, .sending unsent (tickets ++ [(id, own.issued)])⟩ said) := by
  obtain ⟨worker, there, written⟩ := written
  by_cases first : id = 0
  · subst first
    obtain rfl : worker = own := Option.some.inj (there.symm.trans found)
    cases gathers with
    | sending all sent asked fresh =>
        have apart := Gathers.notMem_of_range all
        obtain ⟨unused, -⟩ := (fresh 0 (.head _)).of_getElem? there
        refine ⟨_, Farm.getElem?_setWorker there _, .asked (List.mem_append_right tickets (.head _))
          (unused.closes source) ?_⟩
        rw [Worker.output_send]
        cases written with
        | unsent later rest => exact rest
        | asked waits =>
            have before : 0 ∈ reached := sent ▸ List.mem_map_of_mem waits
            exact absurd (List.mem_append_left _ before) apart
        | spent unsent => exact absurd (.head _) unsent
  · refine Farm.Has.set_ne ⟨worker, there, ?_⟩ first _
    have others : 0 ∈ unsent ↔ 0 ∈ id :: unsent := by simp [Ne.symm first]
    exact written.congr rfl others fun ticket waits => List.mem_append_left _ waits

/-- The reply of worker 0 is the last of what it does. -/
theorem HasWritten.take_received {id ticket : Nat} {rest : List (Nat × Nat)} {outcomes : List Outcome}
    (gathers : Gathers answers source farm.workers reached (.waiting ((id, ticket) :: rest) outcomes))
    {own next : Worker ε σ} {reply : Reply} (found : farm.workers[id]? = some own)
    (got : own.collect? ticket = some (reply, next)) (more : List Outcome)
    (written : Farm.Has farm.workers 0
      (HasWritten whole ⟨source, .waiting ((id, ticket) :: rest) outcomes⟩ said)) :
    Farm.Has (farm.setWorker id next).workers 0 (HasWritten whole ⟨source, .waiting rest more⟩ said) := by
  obtain ⟨worker, there, written⟩ := written
  by_cases first : id = 0
  · subst first
    obtain rfl : worker = own := Option.some.inj (there.symm.trans found)
    have same : next.outlook = worker.outlook := by
      obtain ⟨-, rfl⟩ := Worker.mem_outbox_of_collect? got
      rfl
    refine ⟨next, Farm.getElem?_setWorker there _, ?_⟩
    cases written with
    | unsent later => cases later
    | asked waits closes left =>
        cases gathers with
        | waiting done all sent asked headed collected =>
            rcases List.mem_cons.1 waits with head | behind
            · cases head
              have idle := closes.outlook_eq_nil got
              exact .spent nofun (same.trans idle) (by simpa [idle] using left)
            · have apart := Gathers.notMem_of_range (sent : done ++ 0 :: rest.map Prod.fst = _)
              exact absurd (List.mem_append_right _ (List.mem_map_of_mem behind)) apart
    | spent sent idle all => exact .spent nofun (same.trans idle) all
  · refine Farm.Has.set_ne ⟨worker, there, ?_⟩ first _
    refine written.congr rfl Iff.rfl fun other waits => (List.mem_cons.1 waits).resolve_left ?_
    exact fun head => first (Prod.mk.inj head).1.symm

/-- Nothing comes any more of a worker that gives no reply. -/
theorem HasWritten.take_missed {id ticket : Nat} {rest : List (Nat × Nat)} {outcomes : List Outcome}
    (gathers : Gathers answers source farm.workers reached (.waiting ((id, ticket) :: rest) outcomes))
    {own : Worker ε σ} (found : farm.workers[id]? = some own) (idle : own.step? farm.now = none)
    (written : Farm.Has farm.workers 0
      (HasWritten whole ⟨source, .waiting ((id, ticket) :: rest) outcomes⟩ said)) :
    Farm.Has farm.workers 0 (HasWritten whole ⟨source, if outcomes.isEmpty then
      .returned (.error (.disconnected id)) else .waiting rest outcomes⟩ said) := by
  obtain ⟨worker, there, written⟩ := written
  refine ⟨worker, there, ?_⟩
  cases gathers with
  | waiting done all sent asked headed got =>
      by_cases first : id = 0
      · subst first
        obtain rfl : worker = own := Option.some.inj (there.symm.trans found)
        have promises := (asked (0, ticket) (.head _)).of_getElem? there
        have nothing : worker.outlook = [] := by
          rw [← List.map_eq_nil_iff, Worker.map_fst_outlook, promises.quiet.underway_eq_nil idle]
        have said : said = whole := by
          cases written with
          | unsent later => cases later
          | asked waits closes left => simpa [nothing] using left
          | spent _ _ all => exact all
        split <;> exact .spent nofun nothing said
      · have begun : done ≠ [] := by
          rintro rfl
          exact first (Gathers.first_of_range sent)
        obtain ⟨primary, others, -, split⟩ := Gathers.exists_primary sent headed begun
        rw [got, split]
        refine written.congr rfl Iff.rfl fun other waits => (List.mem_cons.1 waits).resolve_left ?_
        exact fun head => first (Prod.mk.inj head).1.symm

/-- What is written does not change when the call takes a step, though worker 0 may be asked for it then, or
have given its reply. -/
theorem HasWritten.take (spare : Farm.Unheard listeners fun farm => farm.workers)
    (gathers : Gathers answers source farm.workers reached phase)
    (took : Took listeners source farm phase phase' after)
    (written : Farm.Has farm.workers 0 (HasWritten whole ⟨source, phase⟩ said)) :
    Farm.Has after.workers 0 (HasWritten whole ⟨source, phase'⟩ said) := by
  cases took with
  | stayed => exact written
  | sent found => exact take_sent gathers found written
  | turned =>
      obtain ⟨worker, there, written⟩ := written
      exact ⟨worker, there, written.congr rfl Iff.rfl fun _ waits => waits⟩
  | received found got => exact take_received gathers found got _ written
  | missed found _ idle => exact take_missed gathers found idle written
  | told =>
      rw [Gathers.workers_told spare]
      obtain ⟨worker, there, written⟩ := written
      exact ⟨worker, there, written.congr rfl Iff.rfl nofun⟩

end HasWritten

/-- Where a call stands among its workers, of which worker 0 has written `said`. -/
structure InProgress (before : Farm ε σ Audience) (source : String) (subscription : Subscription)
    (farm : Farm ε σ Audience) (phase : Call.Phase) (said : List String) : Prop where
  size : farm.workers.size = before.workers.size
  lists : farm.bus.Lists subscription
  gathers : ∃ reached, Gathers (before.outcome? source) source farm.workers reached phase
  written : Farm.Has farm.workers 0 (HasWritten (before.output source) ⟨source, phase⟩ said)

namespace InProgress

variable {before farm : Farm ε σ Audience} {source : String} {subscription : Subscription}

theorem start (manned : 0 < before.workers.size) (fresh : ∀ worker ∈ before.workers, worker.Fresh)
    (lists : before.bus.Lists subscription) :
    InProgress before source subscription before (Call.start before.workers.size source).phase [] where
  size := rfl
  lists := lists
  gathers := by
    refine ⟨[], .sending rfl rfl nofun fun id member => ?_⟩
    have there := Array.getElem?_eq_getElem (List.mem_range.1 member)
    refine ⟨_, there, fresh _ (Array.getElem_mem _), ?_⟩
    simp [Farm.outcome?, there]
  written := by
    have there := Array.getElem?_eq_getElem manned
    refine ⟨_, there, .unsent (List.mem_range.2 manned) ?_⟩
    simp [Farm.output, there]

variable {phase : Call.Phase} {said : List String}
  (inProgress : InProgress before source subscription farm phase said)
include inProgress

/-- What happens on the bus does not matter, as long as the subscription stays. -/
theorem of_workers {after : Farm ε σ Audience} (workers : after.workers = farm.workers)
    (lists : after.bus.Lists subscription) :
    InProgress before source subscription after phase said where
  size := workers ▸ inProgress.size
  lists := lists
  gathers := workers ▸ inProgress.gathers
  written := workers ▸ inProgress.written

variable {listeners : Listeners ε σ Audience}

theorem take (spare : Farm.Unheard listeners fun farm => farm.workers)
    (retains : listeners.Retains subscription) {next : Call.Phase} {after : Farm ε σ Audience}
    (took : Took listeners source farm phase next after) :
    InProgress before source subscription after next said := by
  obtain ⟨reached, gathers⟩ := inProgress.gathers
  obtain ⟨size, further⟩ := gathers.take spare took
  exact ⟨size.trans inProgress.size, took.lists retains inProgress.lists, ⟨_, further⟩,
    HasWritten.take spare gathers took inProgress.written⟩

omit inProgress in
/-- A failure that is published leaves the call with the outcome of worker 0. -/
theorem conclude {primary : Outcome} {others : List Outcome}
    (inProgress : InProgress before source subscription farm (.waiting [] (primary :: others)) said) :
    InProgress before source subscription farm (.returned (.ok primary)) said := by
  obtain ⟨reached, gathers⟩ := inProgress.gathers
  obtain ⟨worker, there, written⟩ := inProgress.written
  exact ⟨inProgress.size, inProgress.lists, ⟨reached, gathers.take_told⟩,
    ⟨worker, there, written.congr rfl Iff.rfl nofun⟩⟩

/-- When a worker takes a step, and some of its effects follow, what worker 0 wrote then is written. -/
theorem work (spare : Farm.Unheard listeners fun farm => farm.workers)
    (retains : listeners.Retains subscription) {id : Nat} {worker next : Worker ε σ} {now : Nat}
    {effects : List Effect} (there : farm.workers[id]? = some worker)
    (stepped : worker.step? now = some (next, effects)) (shown : List Effect) :
    InProgress before source subscription
      (shown.foldl (Farm.perform listeners id) (farm.setWorker id next)) phase
      (said ++ if id = 0 then worker.texts else []) := by
  have workers : (shown.foldl (Farm.perform listeners id) (farm.setWorker id next)).workers =
      farm.workers.setIfInBounds id next := spare.performAll id shown (farm.setWorker id next)
  obtain ⟨reached, gathers⟩ := inProgress.gathers
  refine ⟨?_, retains.keeps.performAll id shown inProgress.lists, ⟨reached, ?_⟩, ?_⟩
  · rw [workers, Array.size_setIfInBounds, inProgress.size]
  · rw [workers]
    exact gathers.work there stepped
  · rw [workers]
    split
    · next first =>
      subst first
      exact ⟨next, Farm.getElem?_setWorker there next,
        (inProgress.written.of_getElem? there).step stepped⟩
    · next other =>
      rw [List.append_nil]
      exact inProgress.written.set_ne other next

/-- A call with none left to wait for has all of the output out. -/
theorem complete (sent : Call.unsent ⟨source, phase⟩ = []) (waited : Call.tickets ⟨source, phase⟩ = []) :
    said = before.output source ∧ Farm.Has farm.workers 0 fun worker => worker.texts = [] := by
  obtain ⟨worker, there, written⟩ := inProgress.written
  obtain ⟨all, silent⟩ := written.complete sent waited
  exact ⟨all, worker, there, silent⟩

/-- As long as worker 0 has something to write, the call has not come to its failure. -/
theorem attends {worker : Worker ε σ} (there : farm.workers[0]? = some worker)
    (writes : worker.texts ≠ []) (answers : Nat → Option Outcome) (count : Nat) :
    phase.failure? = none ∧ phase.tells answers count = [] := by
  have attended := (inProgress.written.of_getElem? there).attends writes
  cases phase with
  | sending => exact ⟨rfl, rfl⟩
  | waiting tickets outcomes =>
      cases tickets with
      | nil => simp [Call.unsent, Call.tickets] at attended
      | cons => exact ⟨rfl, rfl⟩
  | returned => simp [Call.unsent, Call.tickets] at attended

end InProgress

end EvaluateCall

end RenderFarm
