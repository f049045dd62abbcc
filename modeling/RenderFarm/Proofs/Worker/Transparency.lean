import Mathlib.Data.List.Induction
import RenderFarm.Proofs.Worker.Pipeline

/-!
# Pipelining is transparent

However the sends and waits of a caller and the steps of the thread fall together, a caller hears the
replies, and an observer sees the states and the texts, that come when each request is sent after the
reply to the one before (`inTurn`), and the thread ends up with the same engine and scene
(`pipelined_as_in_turn`). Both runs are on their way through one record, and a thread that has done all
that it has to is at the end of it (`Lawful.rests`).
-/

namespace RenderFarm

open Worker

namespace Pipeline

variable {ε σ : Type} [Scene σ] [Evaluator ε σ] {load : Load ε} {pipeline : Pipeline ε σ}

/-! ## Workers at rest -/

theorem held?_of_idle {worker : Worker ε σ} (idle : worker.underway = []) :
    worker.thread.held? = worker.prospect := by
  obtain ⟨free, empty⟩ := underway_eq_nil_iff.1 idle
  rw [prospect, empty]
  cases stage : worker.thread <;> simp_all [Thread.ticket?] <;> rfl

omit [Scene σ] [Evaluator ε σ] in
theorem steps_of_idle {worker : Worker ε σ} (idle : worker.underway = []) : worker.steps = 0 := by
  obtain ⟨free, empty⟩ := underway_eq_nil_iff.1 idle
  rw [steps, empty]
  cases stage : worker.thread <;> simp_all [Thread.ticket?]

omit [Scene σ] [Evaluator ε σ] in
theorem steps_send_le (worker : Worker ε σ) (request : Request) :
    (worker.send request).2.steps ≤ worker.steps + 3 := by
  cases listens : worker.listens <;> simp [Worker.send, steps, listens]
  omega

/-! ## Pipelines at rest -/

/-- Nothing is queued or in the hands of the thread, and the end of the record is reached. -/
structure Rests (load : Load ε) (pipeline : Pipeline ε σ) : Prop where
  idle : pipeline.worker.underway = []
  states : pipeline.states = statesOf (record load pipeline.sent)
  writes : pipeline.writes = writesOf (record load pipeline.sent)
  served : pipeline.served = servedOf (record load pipeline.sent)
  held : pipeline.worker.thread.held? = standingAfter none (operations load pipeline.sent)

theorem Lawful.rests (lawful : pipeline.Lawful load) (idle : pipeline.worker.underway = []) :
    pipeline.Rests load := by
  have nothing : pipeline.worker.outlook = [] := by
    rw [← List.map_eq_nil_iff, map_fst_outlook, idle]
  refine ⟨idle, ?_, ?_, ?_, ?_⟩
  · rw [← lawful.states, nothing, statesOf_nil, List.append_nil]
  · rw [← lawful.writes, nothing, writesOf_nil, List.append_nil]
  · rw [← lawful.served, nothing, servedOf_nil, List.append_nil]
  · rw [← lawful.prospect, held?_of_idle idle]

/-- Nothing but the thread moves while it works, until it has nothing to do. -/
theorem Lawful.play_work (lawful : pipeline.Lawful load) (now : Nat) {count : Nat}
    (enough : pipeline.worker.steps ≤ count) :
    let last := pipeline.play (List.replicate count (.work now))
    last.worker.underway = [] ∧ last.sent = pipeline.sent ∧ last.dropped = pipeline.dropped ∧
      last.answers = pipeline.answers := by
  induction count generalizing pipeline with
  | zero =>
      cases stepped : pipeline.worker.step? now with
      | none => exact ⟨lawful.quiet.underway_eq_nil stepped, rfl, rfl, rfl⟩
      | some taken => exact absurd (steps_lt stepped) (by omega)
  | succ count ih =>
      have first : pipeline.play (List.replicate (count + 1) (.work now)) =
          (pipeline.work now).play (List.replicate count (.work now)) := rfl
      cases stepped : pipeline.worker.step? now with
      | none =>
          have still : pipeline.work now = pipeline := by simp only [Pipeline.work, stepped]
          have idle := lawful.quiet.underway_eq_nil stepped
          rw [first, still]
          exact ih lawful (by simp [steps_of_idle idle])
      | some taken =>
          obtain ⟨next, effects⟩ := taken
          have fewer := steps_lt stepped
          have moved := lawful.work now
          rw [first]
          simp only [Pipeline.work, stepped] at moved ⊢
          exact ih moved (by simp only; omega)

omit [Scene σ] [Evaluator ε σ] in
/-- Nothing blocks a wait at rest. -/
theorem wait_of_idle (idle : pipeline.worker.underway = []) {ticket : Nat}
    (issued : ticket < pipeline.worker.issued) (fresh : ticket ∉ pipeline.answers.map Prod.fst) :
    ∃ answer next, pipeline.wait ticket =
        { pipeline with worker := next, answers := pipeline.answers ++ [(ticket, answer)] } ∧
      next.underway = [] := by
  unfold wait
  rw [if_neg (by simp [fresh]; omega)]
  split
  · next reply next found =>
    obtain ⟨-, rfl⟩ := mem_outbox_of_collect? found
    exact ⟨some reply, _, rfl, idle⟩
  · next absent =>
    rw [if_neg (by simp [idle])]
    exact ⟨none, pipeline.worker, rfl, idle⟩

/-! ## One request after the other -/

/-- The thread comes to rest, and the caller waits. -/
def await (now ticket : Nat) : List Move :=
  List.replicate 3 (.work now) ++ [.wait ticket]

/-- Each request is sent after the reply to the one before. -/
def inTurn (now : Nat) (requests : List Request) : List Move :=
  await now 0 ++ (requests.mapIdx fun index request =>
    .send request :: await now (index + 1)).flatten

theorem inTurn_concat (now : Nat) (requests : List Request) (request : Request) :
    inTurn now (requests ++ [request]) =
      inTurn now requests ++ (.send request :: await now (requests.length + 1)) := by
  simp [inTurn, List.mapIdx_concat]

/-- A pipeline on a handle that is still there, at rest and with all replies awaited in their order. -/
structure Awaited (load : Load ε) (pipeline : Pipeline ε σ) : Prop where
  lawful : pipeline.Lawful load
  there : pipeline.dropped = false
  idle : pipeline.worker.underway = []
  answers : pipeline.answers.map Prod.fst = List.range (pipeline.sent.length + 1)

theorem play_await (lawful : pipeline.Lawful load) (there : pipeline.dropped = false)
    (few : pipeline.worker.steps ≤ 3)
    (answers : pipeline.answers.map Prod.fst = List.range pipeline.sent.length) (now : Nat) :
    (pipeline.play (await now pipeline.sent.length)).Awaited load ∧
      (pipeline.play (await now pipeline.sent.length)).sent = pipeline.sent := by
  obtain ⟨idle, sent, dropped, heard⟩ := lawful.play_work now few
  have worked := lawful.play (List.replicate 3 (.work now))
  have waited : pipeline.play (await now pipeline.sent.length) =
      (pipeline.play (List.replicate 3 (.work now))).wait pipeline.sent.length := rfl
  have issued : pipeline.sent.length <
      (pipeline.play (List.replicate 3 (.work now))).worker.issued := by
    rw [worked.issued, sent]
    exact Nat.lt_succ_self _
  obtain ⟨answer, next, waits, still⟩ := wait_of_idle idle issued (by rw [heard, answers]; simp)
  have last := worked.wait pipeline.sent.length
  rw [waited]
  rw [waits] at last ⊢
  refine ⟨⟨last, dropped.trans there, still, ?_⟩, sent⟩
  simp only [List.map_append, heard, answers, sent, List.range_succ, List.map_cons, List.map_nil]

/-- The run in which each reply is awaited gets through. -/
theorem play_inTurn (id window now : Nat) (load : Load ε) (requests : List Request) :
    ((start id window load).play (inTurn now requests) : Pipeline ε σ).Awaited load ∧
      ((start id window load).play (inTurn now requests) : Pipeline ε σ).sent = requests := by
  induction requests using List.reverseRecOn with
  | nil =>
      have lawful : (start id window load : Pipeline ε σ).Lawful load := .start id window load
      rw [inTurn, List.mapIdx_nil, List.flatten_nil, List.append_nil]
      exact play_await lawful rfl (by simp [start, Worker.start, create, steps]) rfl now
  | append_singleton requests request ih =>
      obtain ⟨awaited, sent⟩ := ih
      rw [inTurn_concat, play_append]
      generalize (start id window load : Pipeline ε σ).play (inTurn now requests) = pipeline at *
      have sends : (pipeline.send request) = { pipeline with
          worker := (pipeline.worker.send request).2, sent := pipeline.sent ++ [request] } := by
        simp [send, awaited.there]
      have few : (pipeline.send request).worker.steps ≤ 3 := by
        rw [sends]
        have := steps_send_le pipeline.worker request
        rwa [steps_of_idle awaited.idle] at this
      have result := play_await (awaited.lawful.send request) (by rw [sends]; exact awaited.there) few
        (by rw [sends]; simpa using awaited.answers) now
      have length : (pipeline.send request).sent.length = requests.length + 1 := by
        rw [sends, ← sent]
        simp
      rw [length] at result
      have same : (pipeline.send request).sent = requests ++ [request] := by rw [sends, ← sent]
      rw [same] at result
      exact result

/-! ## Requests that are not served -/

/-- What is taken up of a queue is a prefix of it, and all of it unless the request taken up last
ends the thread. -/
theorem servedOf_queued (standing : Standing ε σ) (inbox : List (Nat × Request)) :
    let entries := transcript standing (queued inbox)
    servedOf entries <+: inbox.map Prod.snd ∧
      (servedOf entries = inbox.map Prod.snd ∨ standing = none ∨
        ∃ before entry after, entries = before ++ entry :: after ∧ entry.2.reply = none ∧
          before.length + 1 = (servedOf entries).length) := by
  induction inbox generalizing standing with
  | nil => exact ⟨List.nil_prefix, .inl rfl⟩
  | cons first rest ih =>
      obtain ⟨ticket, request⟩ := first
      cases standing with
      | none =>
          obtain ⟨-, -, -, nothing⟩ :=
            transcript_none (ε := ε) (σ := σ) ((ticket, request) :: rest)
          refine ⟨?_, .inr (.inl rfl)⟩
          rw [nothing]
          exact List.nil_prefix
      | some held =>
          cases answer : answer? held.1 held.2 request with
          | none =>
              have entries : transcript (some held) (queued ((ticket, request) :: rest)) =
                  (ticket, ⟨none, request.activity?.toList, Worker.writes held.1 request, [request]⟩) ::
                    transcript (none : Standing ε σ) (queued rest) := by
                simp [queued, transcript, respond, respondRequest, answer]
              obtain ⟨-, -, -, nothing⟩ := transcript_none (ε := ε) (σ := σ) rest
              dsimp only
              rw [entries, servedOf_cons, nothing]
              exact ⟨⟨rest.map Prod.snd, rfl⟩, .inr (.inr ⟨[], _, _, rfl, rfl, rfl⟩)⟩
          | some answered =>
              obtain ⟨reply, next⟩ := answered
              obtain ⟨prefixed, ends⟩ := ih (some next)
              have entries : ∃ response, response.served = [request] ∧
                  transcript (some held) (queued ((ticket, request) :: rest)) =
                    (ticket, response) :: transcript (some next) (queued rest) := by
                simp [queued, transcript, respond, respondRequest, answer]
              obtain ⟨response, takes, entries⟩ := entries
              dsimp only
              rw [entries, servedOf_cons, takes]
              refine ⟨List.cons_prefix_cons.2 ⟨rfl, prefixed⟩, ?_⟩
              rcases ends with all | gone | ⟨before, entry, after, split, silent, count⟩
              · exact .inl (congrArg (request :: ·) all)
              · cases gone
              · refine .inr (.inr ⟨(ticket, response) :: before, entry, after, ?_, silent, ?_⟩)
                · rw [split, List.cons_append]
                · exact congrArg (· + 1) count

/-- Whatever has been answered to the same requests is answered alike. -/
theorem Awaited.answers_subset (awaited : pipeline.Awaited load) {other : Pipeline ε σ}
    (lawful : other.Lawful load) (alike : other.sent = pipeline.sent) :
    other.answers ⊆ pipeline.answers := by
  rintro ⟨ticket, answer⟩ given
  obtain ⟨issued, tells⟩ := lawful.answered ticket answer given
  have asked : ticket ∈ pipeline.answers.map Prod.fst := by
    rw [awaited.answers, List.mem_range, ← alike]
    exact Nat.lt_succ_of_le issued
  obtain ⟨⟨_, same⟩, there, rfl⟩ := List.mem_map.1 asked
  have also := (awaited.lawful.answered _ same there).2
  rw [← alike] at also
  obtain rfl : same = answer := Option.ext fun reply => (also reply).trans (tells reply).symm
  exact there

/-- At rest, a wait for any ticket gets the answer that was awaited. -/
theorem Awaited.answer_of_wait (awaited : pipeline.Awaited load) {other : Pipeline ε σ}
    (lawful : other.Lawful load) (alike : other.sent = pipeline.sent)
    (idle : other.worker.underway = []) {ticket : Nat} (asked : ticket ≤ other.sent.length) :
    ∃ answer, (ticket, answer) ∈ pipeline.answers ∧ (ticket, answer) ∈ (other.wait ticket).answers := by
  by_cases given : ticket ∈ other.answers.map Prod.fst
  · obtain ⟨⟨_, answer⟩, there, rfl⟩ := List.mem_map.1 given
    refine ⟨answer, awaited.answers_subset lawful alike there, ?_⟩
    simpa only [wait, given, or_true, if_true] using there
  · have issued : ticket < other.worker.issued := by
      rw [lawful.issued]
      exact Nat.lt_succ_of_le asked
    obtain ⟨answer, next, waits, -⟩ := wait_of_idle idle issued given
    have there : (ticket, answer) ∈ (other.wait ticket).answers := by
      rw [waits]
      simp
    refine ⟨answer, awaited.answers_subset (lawful.wait ticket) ?_ there, there⟩
    rw [waits]
    exact alike

/-- A request whose response has no reply is answered so. -/
theorem Awaited.lost (awaited : pipeline.Awaited load) {ticket : Nat} {response : Response}
    (member : (ticket, response) ∈ record load pipeline.sent) (silent : response.reply = none) :
    (ticket, none) ∈ pipeline.answers := by
  have nodup : ((record load pipeline.sent).map Prod.fst).Nodup := by
    rw [map_fst_record]
    exact List.nodup_range
  have asked : ticket ∈ pipeline.answers.map Prod.fst := by
    rw [awaited.answers, ← map_fst_record load]
    exact List.mem_map_of_mem member
  obtain ⟨⟨_, answer⟩, there, rfl⟩ := List.mem_map.1 asked
  cases answer with
  | none => exact there
  | some reply =>
      have told := ((awaited.lawful.answered _ _ there).2 reply).1 rfl
      obtain ⟨other, also, replies⟩ := mem_told.1 told
      obtain rfl : other = response :=
        congrArg Prod.snd (List.inj_on_of_nodup_map nodup also member rfl)
      rw [silent] at replies
      cases replies

/-- Every request is served, unless the one served last, or the load, ends the thread. -/
theorem Awaited.served (awaited : pipeline.Awaited load) :
    pipeline.served <+: pipeline.sent ∧
      (pipeline.served = pipeline.sent ∨ (pipeline.served.length, none) ∈ pipeline.answers ∨
        ∃ message, load = .failure message) := by
  have split : record load pipeline.sent = (0, responseTo load) ::
      transcript (standingOf load) (queued (numbered pipeline.sent)) :=
    rfl
  have served : pipeline.served =
      servedOf (transcript (standingOf load) (queued (numbered pipeline.sent))) := by
    rw [(awaited.lawful.rests awaited.idle).served, split, servedOf_cons]
    cases load <;> rfl
  obtain ⟨first, rest⟩ := servedOf_queued (standingOf load) (numbered pipeline.sent)
  rw [← served, map_snd_numbered] at first rest
  refine ⟨first, rest.imp_right ?_⟩
  rintro (nothing | ⟨before, entry, after, parts, silent, count⟩)
  · have untouched : pipeline.served = [] := by
      rw [served, nothing]
      exact (transcript_none _).2.2.2
    rw [untouched]
    cases load with
    | engine engine => cases nothing
    | failure message => exact .inr ⟨message, rfl⟩
    | panic => exact .inl (awaited.lost (.head _) rfl)
  · have tickets : 0 :: before.map Prod.fst ++ entry.1 :: after.map Prod.fst =
        List.range (pipeline.sent.length + 1) := by
      rw [← map_fst_record load, split, parts]
      simp
    have inside : before.length + 1 < pipeline.sent.length + 1 := by
      have lengths := congrArg List.length tickets
      simp at lengths
      omega
    have ticket : pipeline.served.length = entry.1 := by
      have place := congrArg (·[before.length + 1]?) tickets
      rw [List.getElem?_append_right (by simp), List.getElem?_range inside] at place
      simpa [← count] using place.symm
    have member : (entry.1, entry.2) ∈ record load pipeline.sent := by
      rw [split, parts]
      simp
    rw [ticket]
    exact .inl (awaited.lost member silent)

/-- Whatever moves are made, the caller and the observers of a worker get what they get when each reply
is awaited before the next request is sent (`calm`): no reply is lost or mistaken for another, what is
seen is a part of what is seen then, and it is all of it once the thread has done what it has to
(`finished`), be the handle dropped or not. All that was sent is served then, unless what was served
last, or the load, ended the thread. -/
theorem pipelined_as_in_turn (id window : Nat) (load : Load ε) (moves : List Move) (now : Nat) :
    let last := (start id window load : Pipeline ε σ).play moves
    let finished := last.play (List.replicate last.worker.work (.work now))
    let calm := (start id window load : Pipeline ε σ).play (inTurn now last.sent)
    (calm.sent = last.sent ∧ calm.answers.map Prod.fst = List.range (last.sent.length + 1)) ∧
      ((last.answers.map Prod.fst).Nodup ∧ last.answers ⊆ calm.answers) ∧
      (last.states <+: calm.states ∧ last.writes <+: calm.writes ∧ last.served <+: calm.served) ∧
      ((∀ later, finished.worker.step? later = none) ∧
        finished.states = calm.states ∧ finished.writes = calm.writes ∧
        finished.served = calm.served ∧
        finished.worker.thread.held? = calm.worker.thread.held? ∧
        ∀ ticket ≤ last.sent.length, ∃ answer, (ticket, answer) ∈ calm.answers ∧
          (ticket, answer) ∈ (finished.step (.wait ticket)).answers) ∧
      (calm.served <+: last.sent ∧
        (calm.served = last.sent ∨ (calm.served.length, none) ∈ calm.answers ∨
          ∃ message, load = .failure message)) := by
  intro last finished calm
  have lawful : last.Lawful load := (Lawful.start id window load).play moves
  obtain ⟨awaited, sent⟩ := play_inTurn (σ := σ) id window now load last.sent
  obtain ⟨idle, same, -, heard⟩ := lawful.play_work now (steps_le_work last.worker)
  have finishes : finished.Lawful load := lawful.play _
  have rests := finishes.rests idle
  have calms := awaited.lawful.rests awaited.idle
  have states : statesOf (record load last.sent) = calm.states := by rw [calms.states, sent]
  have writes : writesOf (record load last.sent) = calm.writes := by rw [calms.writes, sent]
  have served : servedOf (record load last.sent) = calm.served := by rw [calms.served, sent]
  refine ⟨⟨sent, ?_⟩, ⟨lawful.once, ?_⟩, ⟨?_, ?_, ?_⟩, ⟨?_, ?_, ?_, ?_, ?_, ?_⟩, ?_⟩
  · rw [awaited.answers, sent]
  · exact awaited.answers_subset lawful sent.symm
  · exact ⟨_, lawful.states.trans states⟩
  · exact ⟨_, lawful.writes.trans writes⟩
  · exact ⟨_, lawful.served.trans served⟩
  · exact step?_eq_none_of_underway idle
  · rw [rests.states, same, states]
  · rw [rests.writes, same, writes]
  · rw [rests.served, same, served]
  · rw [rests.held, calms.held, same, sent]
  · intro ticket asked
    exact awaited.answer_of_wait finishes (same.trans sent.symm) idle (same ▸ asked)
  · have served := awaited.served
    rwa [sent] at served

/-- Requests that are queued when the handle is dropped are answered all the same. -/
theorem queue_outlives_handle :
    let last := (start 0 0 (.engine .empty) : Pipeline Language.Bindings Language.Picture).play
      [.send (.evaluate "x = 1"), .send .names, .wait 2, .drop]
    let finished := last.play (List.replicate last.worker.work (.work 0))
    last.served = [] ∧ last.answers = [] ∧
      (2, some (.names ["x"])) ∈ (finished.step (.wait 2)).answers := by
  intro last finished
  have calm : ((start 0 0 (.engine .empty) : Pipeline Language.Bindings Language.Picture).play
      (inTurn 0 last.sent)).answers = [(0, some (.loaded none)),
        (1, some (.outcome (.success "1" none))), (2, some (.names ["x"]))] := by
    decide +kernel
  obtain ⟨-, -, -, ⟨-, -, -, -, -, replies⟩, -⟩ :=
    pipelined_as_in_turn 0 0 (.engine .empty : Load Language.Bindings)
      [.send (.evaluate "x = 1"), .send .names, .wait 2, .drop] 0
  obtain ⟨answer, told, given⟩ := replies 2 (by decide +kernel)
  rw [calm] at told
  obtain rfl : answer = some (.names ["x"]) := by simpa using told
  exact ⟨by decide +kernel, by decide +kernel, given⟩

end Pipeline

end RenderFarm
