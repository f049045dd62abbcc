import Mathlib.Data.List.Induction
import RenderFarm.Language.Evaluation
import RenderFarm.Proofs.Evaluations.Order
import RenderFarm.Proofs.Farm.Evaluating

/-!
# What workers come to when evaluations run side by side

When all calls have returned and no thread has ended, every worker rests with what the texts make of it
in the order in which they arrived in its own queue (`evaluated_in_order_of_arrival`). So workers at
which the texts arrived in the same order hold the same, and all do if the calls have sent their texts
one call after the other. Nothing makes them do so: when the sends of two calls cross, the workers may
part (`crossed_calls_part_workers`).
-/

namespace RenderFarm

open RenderFarm.Language

namespace Evaluations

variable {ε σ Audience : Type} [Scene σ] [Evaluator ε σ] {listeners : Listeners ε σ Audience}

/-- The thread of some worker has ended. -/
def Ended (workers : Array (Worker ε σ)) : Prop :=
  ∃ (id : Nat) (worker : Worker ε σ), workers[id]? = some worker ∧ worker.thread = .ended

omit [Scene σ] [Evaluator ε σ] in
theorem Ended.set {workers : Array (Worker ε σ)} {id : Nat} {worker next : Worker ε σ}
    (ended : Ended workers) (there : workers[id]? = some worker)
    (kept : worker.thread = .ended → next.thread = .ended) :
    Ended (workers.setIfInBounds id next) := by
  obtain ⟨placed, -⟩ := Array.getElem?_eq_some_iff.1 there
  obtain ⟨other, gone, found, thread⟩ := ended
  by_cases same : id = other
  · subst same
    cases there.symm.trans found
    exact ⟨id, next, Array.getElem?_setIfInBounds_self_of_lt placed, kept thread⟩
  · exact ⟨other, gone, by rwa [Array.getElem?_setIfInBounds_ne same], thread⟩

theorem Ended.poll? {farm next : Farm ε σ Audience} (ended : Ended farm.workers) {id ticket : Nat}
    {result : Except Failure Outcome} (polled : farm.poll? id ticket = some (result, next)) :
    Ended next.workers := by
  unfold Farm.poll? at polled
  cases there : farm.workers[id]? with
  | none =>
      simp only [there, Option.some.injEq, Prod.mk.injEq] at polled
      exact polled.2 ▸ ended
  | some worker =>
      cases got : worker.collect? ticket with
      | none =>
          simp only [there, got] at polled
          split at polled <;> cases polled
          exact ended
      | some collected =>
          obtain ⟨reply, taken⟩ := collected
          have thread : taken.thread = worker.thread := by
            simp only [Worker.collect?, Option.map_eq_some_iff, Prod.mk.injEq] at got
            obtain ⟨_, _, _, rfl⟩ := got
            rfl
          have kept : Ended (farm.setWorker id taken).workers :=
            ended.set there fun gone => thread.trans gone
          simp only [there, got] at polled
          cases reply <;> cases polled <;> exact kept

/-- What calls do brings no thread back. -/
theorem Ended.stepCall (spare : Farm.Unheard listeners fun farm => farm.workers)
    {farm : Farm ε σ Audience} (ended : Ended farm.workers) (source : String)
    (phase : Call.Phase) : Ended (Farm.stepCall listeners source phase farm).2.workers := by
  unfold Farm.stepCall
  split
  · next id unsent tickets =>
    cases there : farm.workers[id]? with
    | none => simpa only [Farm.send, there] using ended
    | some worker =>
        simp only [Farm.send, there]
        exact ended.set there fun thread => thread
  · exact ended
  · split
    · exact ended
    · next polled => exact ended.poll? polled
    · next polled => split <;> exact ended.poll? polled
  · exact ended
  · split
    · rw [spare.publish]
      exact ended
    · exact ended
  · exact ended

theorem Ended.step (spare : Farm.Unheard listeners fun farm => farm.workers)
    {evaluations : Evaluations ε σ Audience} (ended : Ended evaluations.farm.workers)
    (move : Move) : Ended (evaluations.step listeners move).farm.workers := by
  cases move with
  | call number =>
      simp only [Evaluations.step, advance]
      split
      · exact ended
      · exact ended.stepCall spare _ _
  | work id =>
      simp only [Evaluations.step, work]
      split
      · exact ended
      · next worker there =>
        split
        · exact ended
        · next next effects stepped =>
          rw [spare.performAll]
          refine ended.set there fun thread => ?_
          simp [Worker.step?, thread] at stepped

/-- A step keeps the order, unless a thread ends. -/
theorem Orderly.step (spare : Farm.Unheard listeners fun farm => farm.workers)
    {base : ε × Option σ} {sources : List String} {count : Nat}
    {evaluations : Evaluations ε σ Audience}
    (orderly : Orderly base sources count evaluations.farm.workers evaluations.calls
      evaluations.sends evaluations.services) (move : Move) :
    let next := evaluations.step listeners move
    Ended next.farm.workers ∨
      Orderly base sources count next.farm.workers next.calls next.sends next.services := by
  cases move with
  | call number =>
      simp only [Evaluations.step, advance]
      split
      · exact .inr orderly
      · next call found => exact .inr (orderly.stepCall spare found)
  | work id =>
      simp only [Evaluations.step, work]
      split
      · exact .inr orderly
      · next worker there =>
        split
        · exact .inr orderly
        · next next effects stepped =>
          dsimp only
          rw [spare.performAll]
          refine (orderly.worked there stepped).imp_left fun thread => ?_
          exact ⟨id, next, Farm.getElem?_setWorker there next, thread⟩

theorem start_orderly {farm : Farm ε σ Audience} {engine : ε} {scene : Option σ}
    (agrees : farm.Agrees engine scene) (sources : List String) :
    Orderly (engine, scene) sources farm.workers.size farm.workers
      (start farm sources).calls [] [] := by
  have fresh : ∀ (number : Nat) call, (start farm sources).calls[number]? = some call →
      call.unsent = List.range farm.workers.size ∧ call.tickets = [] := by
    intro number call found
    simp only [start, List.getElem?_map, Option.map_eq_some_iff] at found
    obtain ⟨source, -, rfl⟩ := found
    exact ⟨rfl, rfl⟩
  refine ⟨rfl, ?_, ?_, by simp, ?_, ?_, ?_⟩
  · simp [start, Call.start, Function.comp_def]
  · exact fun number call found => (fresh number call found).1
  · intro number call found
    rw [(fresh number call found).1, (fresh number call found).2]
    exact List.Sublist.refl _
  · intro number other call call' entry found _ member
    rw [(fresh number call found).2] at member
    cases member
  · intro id worker there
    refine (agrees id worker there).tracks ?_
    rintro ticket ⟨number, call, found, member⟩
    rw [(fresh number call found).2] at member
    cases member

/-- As long as no thread ends, the order is kept. -/
theorem play_orderly (spare : Farm.Unheard listeners fun farm => farm.workers)
    {farm : Farm ε σ Audience} {engine : ε} {scene : Option σ}
    (agrees : farm.Agrees engine scene) (sources : List String) (moves : List Move) :
    let after := (start farm sources).play listeners moves
    Ended after.farm.workers ∨ Orderly (engine, scene) sources farm.workers.size
      after.farm.workers after.calls after.sends after.services := by
  induction moves using List.reverseRecOn with
  | nil => exact .inr (start_orderly agrees sources)
  | append_singleton moves move ih =>
      rw [play_append]
      exact ih.elim (fun ended => .inl (ended.step spare move))
        fun orderly => orderly.step spare move

/-- Calls that send their texts one after the other reach all workers in the same order. -/
theorem Undivided.arrivals_eq {count : Nat} {sends : List (Nat × Nat)}
    (undivided : Undivided count sends) {id id' : Nat} (there : id < count) (there' : id' < count) :
    arrivals sends id = arrivals sends id' := by
  obtain ⟨order, rfl⟩ := undivided
  have once : ∀ id < count, (List.range count).filter (· == id) = [id] := by
    intro id there
    rw [List.filter_beq, List.nodup_range.count, if_pos (List.mem_range.2 there)]
    rfl
  have all : ∀ id < count, arrivals (order.flatMap fun number =>
      (List.range count).map (Prod.mk number)) id = order := by
    intro id there
    simp only [arrivals, List.filter_flatMap, List.filter_map, List.map_flatMap, Function.comp_def,
      once id there]
    simp
  rw [all id there, all id' there']

section Returned

variable {base : ε × Option σ} {sources : List String} {count : Nat} {workers : Array (Worker ε σ)}
  {calls : List Call} {sends : List (Nat × Nat)} {services : List (Nat × String)}
  {id id' : Nat} {worker worker' : Worker ε σ}

/-- When all calls have returned, the text of each has arrived once at every worker. -/
theorem Orderly.arrivals_perm (orderly : Orderly base sources count workers calls sends services)
    (returned : ∀ call ∈ calls, call.isReturned) (inside : id < count) :
    (arrivals sends id).Perm (List.range sources.length) := by
  have length : calls.length = sources.length := by rw [← orderly.texts, List.length_map]
  rw [List.perm_iff_count]
  intro number
  rw [count_arrivals, List.nodup_range.count]
  by_cases called : number < calls.length
  · have reached := orderly.reached number _ (List.getElem?_eq_getElem called)
    have sent := (Call.settled_of_isReturned (returned _ (List.getElem_mem called))).1
    rw [sent, List.append_nil] at reached
    rw [← count_recipients, reached, List.nodup_range.count, if_pos (List.mem_range.2 inside),
      if_pos (List.mem_range.2 (length ▸ called))]
  · rw [if_neg fun member => called (length ▸ List.mem_range.1 member)]
    exact List.count_eq_zero.2 fun member => called (orderly.senders _ member)

/-- When all calls have returned, a worker rests with what the texts make of it in the order in which
they have arrived. -/
theorem Orderly.rests (orderly : Orderly base sources count workers calls sends services)
    (returned : ∀ call ∈ calls, call.isReturned) (there : workers[id]? = some worker) :
    served services id = (arrivals sends id).filterMap (sources[·]?) ∧
      ∃ engine scene, worker.Rests engine scene ∧
        Worker.evaluateAll base (served services id) = some (engine, scene) := by
  refine (orderly.tracks id worker there).rests ?_
  rintro ticket ⟨number, call, found, member⟩
  rw [(Call.settled_of_isReturned (returned call (List.mem_of_getElem? found))).2] at member
  cases member

/-- When all calls have returned, workers at which the texts arrived in the same order hold the
same. -/
theorem Orderly.thread_eq (orderly : Orderly base sources count workers calls sends services)
    (returned : ∀ call ∈ calls, call.isReturned) (there : workers[id]? = some worker)
    (there' : workers[id']? = some worker') (same : arrivals sends id = arrivals sends id') :
    served services id = served services id' ∧ worker.thread = worker'.thread := by
  obtain ⟨inOrder, engine, scene, rests, made⟩ := orderly.rests returned there
  obtain ⟨inOrder', engine', scene', rests', made'⟩ := orderly.rests returned there'
  have equal : served services id = served services id' := by rw [inOrder, inOrder', same]
  rw [equal, made', Option.some.injEq, Prod.mk.injEq] at made
  refine ⟨equal, ?_⟩
  rw [rests.thread, rests'.thread, made.1, made.2]

end Returned

/-- What concurrent evaluations come to on workers that held the same at first. When all have
returned and no thread has ended, each worker has evaluated the text of every call once, in the order
in which the texts arrived in its queue, and holds what they make of it. Workers at which they arrived
in the same order hold the same, and so do all workers when the texts were sent one call after the
other. Callbacks leave the workers alone; an evaluation that one asks for is one more call. -/
theorem evaluated_in_order_of_arrival (listeners : Listeners ε σ Audience)
    (farm : Farm ε σ Audience) (spare : Farm.Unheard listeners fun farm => farm.workers)
    {engine : ε} {scene : Option σ} (agrees : farm.Agrees engine scene) (sources : List String)
    (moves : List Move) :
    let after := (start farm sources).play listeners moves
    (∀ call ∈ after.calls, call.isReturned) →
    (∀ worker ∈ after.farm.workers, worker.thread ≠ .ended) →
      (∀ id < farm.workers.size,
        (arrivals after.sends id).Perm (List.range sources.length) ∧
        served after.services id = (arrivals after.sends id).filterMap (sources[·]?) ∧
        ∃ worker engine' scene', after.farm.workers[id]? = some worker ∧
          worker.Rests engine' scene' ∧ Worker.evaluateAll (engine, scene)
            (served after.services id) = some (engine', scene')) ∧
      (∀ (id id' : Nat) worker worker', after.farm.workers[id]? = some worker →
        after.farm.workers[id']? = some worker' →
        arrivals after.sends id = arrivals after.sends id' →
        served after.services id = served after.services id' ∧ worker.thread = worker'.thread) ∧
      (Undivided farm.workers.size after.sends →
        (∀ id < farm.workers.size, ∀ id' < farm.workers.size,
          served after.services id = served after.services id') ∧
        ∃ engine' scene', after.farm.Agrees engine' scene') := by
  intro after returned running
  have orderly : Orderly (engine, scene) sources farm.workers.size after.farm.workers after.calls
      after.sends after.services := by
    refine (play_orderly spare agrees sources moves).resolve_left ?_
    rintro ⟨id, worker, there, thread⟩
    exact running worker (Array.mem_of_getElem? there) thread
  have present : ∀ id < farm.workers.size, ∃ worker, after.farm.workers[id]? = some worker :=
    fun id inside => ⟨_, Array.getElem?_eq_getElem (orderly.size ▸ inside)⟩
  refine ⟨?_, fun id id' worker worker' => orderly.thread_eq returned, fun undivided => ⟨?_, ?_⟩⟩
  · intro id inside
    obtain ⟨worker, there⟩ := present id inside
    obtain ⟨inOrder, engine', scene', rests, made⟩ := orderly.rests returned there
    exact ⟨orderly.arrivals_perm returned inside, inOrder, worker, engine', scene', there, rests,
      made⟩
  · intro id inside id' inside'
    obtain ⟨worker, there⟩ := present id inside
    obtain ⟨worker', there'⟩ := present id' inside'
    exact (orderly.thread_eq returned there there' (undivided.arrivals_eq inside inside')).1
  · rcases Nat.eq_zero_or_pos farm.workers.size with none | some
    · refine ⟨engine, scene, fun id worker there => ?_⟩
      obtain ⟨inside, -⟩ := Array.getElem?_eq_some_iff.1 there
      rw [orderly.size, none] at inside
      exact (Nat.not_lt_zero _ inside).elim
    · obtain ⟨first, found⟩ := present 0 some
      obtain ⟨-, engine', scene', rests, -⟩ := orderly.rests returned found
      refine ⟨engine', scene', fun id worker there => ?_⟩
      obtain ⟨inside, -⟩ := Array.getElem?_eq_some_iff.1 there
      obtain ⟨-, engine'', scene'', rests', -⟩ := orderly.rests returned there
      have same := (orderly.thread_eq returned there found
        (undivided.arrivals_eq (orderly.size ▸ inside) some)).2
      rw [rests'.thread, rests.thread, Thread.ready.injEq] at same
      obtain ⟨rfl, rfl⟩ := same
      exact rests'

/-- Two workers with a black picture of one row. -/
def twins : Farm Bindings Picture Unit :=
  .start 0 ((Array.range 2).map fun id => .holding id .empty ⟨⟨1, 1⟩, .solid .black⟩) ()

theorem twins_agree : twins.Agrees .empty (some ⟨⟨1, 1⟩, .solid .black⟩) := by
  intro id worker there
  obtain ⟨_, rfl⟩ : ∃ id, worker = .holding id .empty ⟨⟨1, 1⟩, .solid .black⟩ := by
    have member := Array.mem_of_getElem? there
    simp only [twins, Farm.start, Array.mem_map] at member
    obtain ⟨id, -, rfl⟩ := member
    exact ⟨id, rfl⟩
  exact Worker.holding_rests _ _ _

/-- The workers do all that they have to, and then both calls take what has come. -/
def finish : List Move :=
  List.replicate 6 (.work 0) ++ List.replicate 6 (.work 1) ++ List.replicate 4 (.call 0) ++
    List.replicate 4 (.call 1)

/-- Two calls that send their texts one after the other leave the workers alike. -/
theorem twins_agree_after_calls_in_turn :
    let after := (start twins ["x = 1", "x = 2"]).play .silent
      ([.call 0, .call 0, .call 1, .call 1] ++ finish)
    served after.services 0 = served after.services 1 ∧
      ∃ engine scene, after.farm.Agrees engine scene := by
  intro after
  have sends : after.sends = [0, 1].flatMap fun number =>
      (List.range twins.workers.size).map (Prod.mk number) := by
    decide +kernel
  have result := (evaluated_in_order_of_arrival .silent twins ⟨fun _ _ => rfl, fun _ _ => rfl,
    fun _ _ _ => rfl⟩ twins_agree ["x = 1", "x = 2"]
    ([.call 0, .call 0, .call 1, .call 1] ++ finish) (by decide +kernel)
    (by decide +kernel)).2.2 ⟨[0, 1], sends⟩
  exact ⟨result.1 0 (by decide +kernel) 1 (by decide +kernel), result.2⟩

/-- Two calls whose sends cross leave `x` with another value on each worker. -/
theorem crossed_calls_part_workers :
    let after := (start twins ["x = 1", "x = 2"]).play .silent
      ([.call 0, .call 1, .call 1, .call 0] ++ finish)
    (∀ call ∈ after.calls, call.isReturned) ∧
      (∀ worker ∈ after.farm.workers, worker.thread ≠ .ended) ∧
      served after.services 0 = ["x = 1", "x = 2"] ∧
      served after.services 1 = ["x = 2", "x = 1"] ∧
      (after.farm.workers[0]?.bind (·.thread.held?)).map Prod.fst ≠
        (after.farm.workers[1]?.bind (·.thread.held?)).map Prod.fst := by
  decide +kernel

end Evaluations

end RenderFarm
