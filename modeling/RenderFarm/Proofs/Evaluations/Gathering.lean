import RenderFarm.Proofs.Evaluations.Order
import RenderFarm.Proofs.Worker.Prospects

/-!
# Gathering answers

The workers of a farm may stand anywhere, and each answers a text in its own way or not at all. `Gathers`
says where a call stands among the answers that they will give: it has sent the text to the first of
them, those that it waits for promise their answers, and those that have answered have given the
outcomes. Every step of the call keeps this (`Gathers.take`), and so does every step of a worker.
-/

namespace RenderFarm

variable {ε σ Audience : Type}

namespace Farm

/-- A worker is there, and has a property. -/
def Has (workers : Array (Worker ε σ)) (id : Nat) (P : Worker ε σ → Prop) : Prop :=
  ∃ worker, workers[id]? = some worker ∧ P worker

theorem Has.of_getElem? {workers : Array (Worker ε σ)} {id : Nat} {P : Worker ε σ → Prop}
    (has : Has workers id P) {worker : Worker ε σ} (there : workers[id]? = some worker) :
    P worker := by
  obtain ⟨own, found, holds⟩ := has
  obtain rfl : worker = own := Option.some.inj (there.symm.trans found)
  exact holds

theorem Has.set_ne {workers : Array (Worker ε σ)} {id other : Nat} {P : Worker ε σ → Prop}
    (has : Has workers other P) (different : id ≠ other) (next : Worker ε σ) :
    Has (workers.setIfInBounds id next) other P := by
  obtain ⟨worker, there, holds⟩ := has
  exact ⟨worker, by rwa [Array.getElem?_setIfInBounds_ne different], holds⟩

/-- What a worker's change keeps of it, the workers keep. -/
theorem Has.set {workers : Array (Worker ε σ)} {id other : Nat} {P : Worker ε σ → Prop}
    {worker next : Worker ε σ} (has : Has workers other P) (there : workers[id]? = some worker)
    (kept : P worker → P next) : Has (workers.setIfInBounds id next) other P := by
  by_cases same : id = other
  · subst same
    obtain ⟨inside, -⟩ := Array.getElem?_eq_some_iff.1 there
    exact ⟨next, Array.getElem?_setIfInBounds_self_of_lt inside, kept (has.of_getElem? there)⟩
  · exact has.set_ne same next

variable [Scene σ] [Evaluator ε σ]

/-- What worker `id` will answer when it is asked to evaluate a source text. -/
def outcome? (farm : Farm ε σ Audience) (source : String) (id : Nat) : Option Outcome :=
  farm.workers[id]?.bind fun worker => worker.outcome? source

end Farm

namespace Evaluations

/-! ## The answers in order -/

section Answers

variable (answers : Nat → Option Outcome) (count : Nat)

/-- The message of the first worker that fails. -/
def failure? : Option String :=
  (List.range count).findSome? fun id => (answers id).bind Outcome.error

theorem firstError_filterMap (ids : List Nat) : Farm.firstError (ids.filterMap answers) =
    ids.findSome? fun id => (answers id).bind Outcome.error := by
  rw [Farm.firstError, ← List.head?_filterMap, List.filterMap_filterMap, List.head?_filterMap]

theorem error_eq_some_iff {outcome : Outcome} {message : String} :
    outcome.error = some message ↔ outcome = .failure message := by
  cases outcome <;> simp [Outcome.error]

theorem bind_error_eq_some_iff {id : Nat} {message : String} :
    (answers id).bind Outcome.error = some message ↔ answers id = some (.failure message) := by
  simp [Option.bind_eq_some_iff, error_eq_some_iff]

/-- The first worker that fails is the lowest. -/
theorem failure?_eq_some {message : String} (failed : failure? answers count = some message) :
    ∃ id, answers id = some (.failure message) ∧
      ∀ lower < id, ∀ other, answers lower ≠ some (.failure other) := by
  obtain ⟨lower, id, higher, split, own, passed⟩ := List.findSome?_eq_some_iff.1 failed
  refine ⟨id, (bind_error_eq_some_iff answers).1 own, fun other below message' also => ?_⟩
  have inside : id ∈ List.range count := by simp [split]
  have among : other ∈ List.range count :=
    List.mem_range.2 (Nat.lt_trans below (List.mem_range.1 inside))
  have sorted : (lower ++ id :: higher).Pairwise (· < ·) := split ▸ List.pairwise_lt_range
  rw [split, List.mem_append, List.mem_cons] at among
  rcases among with before | rfl | behind
  · have silent := passed other before
    rw [(bind_error_eq_some_iff answers).2 also] at silent
    cases silent
  · exact Nat.lt_irrefl _ below
  · have above := List.rel_of_pairwise_cons (List.pairwise_append.1 sorted).2.1 behind
    exact Nat.lt_asymm below above

theorem failure?_eq_none (sound : failure? answers count = none)
    (absent : ∀ id, count ≤ id → answers id = none) (id : Nat) (message : String) :
    answers id ≠ some (.failure message) := by
  intro failed
  rcases Nat.lt_or_ge id count with below | above
  · have passed := List.findSome?_eq_none_iff.1 sound id (List.mem_range.2 below)
    rw [(bind_error_eq_some_iff answers).2 failed] at passed
    cases passed
  · rw [absent id above] at failed
    cases failed

end Answers

/-! ## A call among workers that answer -/

section Gathering

variable [Scene σ] [Evaluator ε σ]

/-- Where a call stands when it has reached these workers, and the workers answer like this. -/
inductive Gathers (answers : Nat → Option Outcome) (source : String) (workers : Array (Worker ε σ))
    (reached : List Nat) : Call.Phase → Prop
  | sending {unsent : List Nat} {tickets : List (Nat × Nat)}
    (all : reached ++ unsent = List.range workers.size) (sent : tickets.map Prod.fst = reached)
    (asked : ∀ entry ∈ tickets,
      Farm.Has workers entry.1 fun worker => worker.Promises entry.2 (answers entry.1))
    (fresh : ∀ id ∈ unsent,
      Farm.Has workers id fun worker => worker.Fresh ∧ worker.outcome? source = answers id) :
    Gathers answers source workers reached (.sending unsent tickets)
  /-- Of the workers that have been waited for, those that answered have given the outcomes. -/
  | waiting (done : List Nat) {tickets : List (Nat × Nat)} {outcomes : List Outcome}
    (all : reached = List.range workers.size)
    (sent : done ++ tickets.map Prod.fst = List.range workers.size)
    (asked : ∀ entry ∈ tickets,
      Farm.Has workers entry.1 fun worker => worker.Promises entry.2 (answers entry.1))
    (headed : done ≠ [] → answers 0 ≠ none) (got : outcomes = done.filterMap answers) :
    Gathers answers source workers reached (.waiting tickets outcomes)
  | returned {result : Except Failure Outcome} (all : reached = List.range workers.size)
    (concluded : result = match answers 0 with
      | some outcome => .ok outcome
      | none => .error (.disconnected 0)) :
    Gathers answers source workers reached (.returned result)

/-- What a step of a call does when all workers that it deals with are there and give outcomes. -/
inductive Took (listeners : Listeners ε σ Audience) (source : String) (farm : Farm ε σ Audience) :
    Call.Phase → Call.Phase → Farm ε σ Audience → Prop
  | stayed {phase : Call.Phase} (sent : Call.unsent ⟨source, phase⟩ = []) :
    Took listeners source farm phase phase farm
  | sent {id : Nat} {unsent : List Nat} {tickets : List (Nat × Nat)} {worker : Worker ε σ}
    (there : farm.workers[id]? = some worker) :
    Took listeners source farm (.sending (id :: unsent) tickets)
      (.sending unsent (tickets ++ [(id, worker.issued)]))
      (farm.setWorker id (worker.send (.evaluate source)).2)
  | turned (tickets : List (Nat × Nat)) :
    Took listeners source farm (.sending [] tickets) (.waiting tickets []) farm
  | received {id ticket : Nat} {rest : List (Nat × Nat)} {outcomes : List Outcome}
    {worker next : Worker ε σ} {outcome : Outcome} (there : farm.workers[id]? = some worker)
    (got : worker.collect? ticket = some (.outcome outcome, next)) :
    Took listeners source farm (.waiting ((id, ticket) :: rest) outcomes)
      (.waiting rest (outcomes ++ [outcome])) (farm.setWorker id next)
  | missed {id ticket : Nat} {rest : List (Nat × Nat)} {outcomes : List Outcome}
    {worker : Worker ε σ} (there : farm.workers[id]? = some worker)
    (absent : worker.collect? ticket = none) (idle : worker.step? farm.now = none) :
    Took listeners source farm (.waiting ((id, ticket) :: rest) outcomes)
      (if outcomes.isEmpty then .returned (.error (.disconnected id)) else .waiting rest outcomes)
      farm
  | told (primary : Outcome) (others : List Outcome) :
    Took listeners source farm (.waiting [] (primary :: others)) (.returned (.ok primary))
      (match Farm.firstError (primary :: others) with
      | some message => farm.publish listeners (.evalError message)
      | none => farm)

namespace Gathers

variable {listeners : Listeners ε σ Audience} {answers : Nat → Option Outcome} {source : String}
  {farm : Farm ε σ Audience} {reached : List Nat} {phase : Call.Phase}

omit [Scene σ] [Evaluator ε σ] in
theorem first_of_range {first count : Nat} {rest : List Nat}
    (split : first :: rest = List.range count) : first = 0 := by
  cases count with
  | zero => cases split
  | succ count =>
      rw [List.range_succ_eq_map] at split
      exact (List.cons.inj split).1

omit [Scene σ] [Evaluator ε σ] in
/-- None is asked twice. -/
theorem notMem_of_range {earlier later : List Nat} {id count : Nat}
    (split : earlier ++ id :: later = List.range count) : id ∉ earlier ++ later :=
  (List.nodup_cons.1 (List.nodup_middle.1 (split ▸ List.nodup_range))).1

omit [Scene σ] [Evaluator ε σ] in
/-- The first outcome is that of worker 0, which is the first that is waited for. -/
theorem exists_primary {done rest : List Nat} {count : Nat} (split : done ++ rest = List.range count)
    (headed : done ≠ [] → answers 0 ≠ none) (begun : done ≠ []) :
    ∃ primary others, answers 0 = some primary ∧ done.filterMap answers = primary :: others := by
  obtain ⟨primary, answer⟩ := Option.ne_none_iff_exists'.1 (headed begun)
  obtain ⟨first, done, rfl⟩ := List.exists_cons_of_ne_nil begun
  obtain rfl := first_of_range split
  exact ⟨primary, done.filterMap answers, answer, by simp [answer]⟩

omit [Scene σ] [Evaluator ε σ] in
/-- If worker 0 is not among those that have been waited for, it is the next. -/
theorem headed_concat {done rest : List Nat} {id count : Nat}
    (split : done ++ id :: rest = List.range count) (headed : done ≠ [] → answers 0 ≠ none)
    (answer : done = [] → answers id ≠ none) : answers 0 ≠ none := by
  cases done with
  | nil =>
      obtain rfl := first_of_range split
      exact answer rfl
  | cons => exact headed nofun

variable (listeners) in
theorem took (gathers : Gathers answers source farm.workers reached phase)
    (manned : 0 < farm.workers.size) :
    Took listeners source farm phase (Farm.stepCall listeners source phase farm).1
      (Farm.stepCall listeners source phase farm).2 := by
  cases gathers with
  | @sending unsent tickets all sent asked fresh =>
      cases unsent with
      | nil => exact .turned tickets
      | cons id unsent =>
          obtain ⟨worker, there, -⟩ := fresh id (.head _)
          simp only [Farm.stepCall, Farm.send, there]
          exact .sent there
  | @waiting done tickets outcomes all sent asked headed got =>
      cases tickets with
      | nil =>
          have begun : done ≠ [] := by
            rintro rfl
            have length := congrArg List.length sent
            simp at length
            omega
          obtain ⟨primary, others, -, split⟩ := exists_primary sent headed begun
          rw [got, split]
          have told : Took listeners source farm _ _ _ := .told primary others
          simp only [Farm.stepCall]
          split <;> next found =>
            rw [found] at told
            exact told
      | cons entry rest =>
          obtain ⟨id, ticket⟩ := entry
          obtain ⟨worker, there, promises⟩ := asked (id, ticket) (.head _)
          cases got : worker.collect? ticket with
          | some collected =>
              obtain ⟨reply, next⟩ := collected
              obtain ⟨outcome, -, rfl⟩ := promises.collect? got
              simp only [Farm.stepCall, Farm.poll?, there, got]
              exact .received there got
          | none =>
              cases stepped : worker.step? farm.now with
              | some taken =>
                  simp only [Farm.stepCall, Farm.poll?, there, got, stepped]
                  exact .stayed rfl
              | none =>
                  have missed : Took listeners source farm (.waiting ((id, ticket) :: rest) outcomes)
                    _ _ := .missed there got stepped
                  simp only [Farm.stepCall, Farm.poll?, there, got, stepped, Option.isSome_none,
                    Bool.false_eq_true, if_false]
                  split <;> next empty =>
                    simp only [empty, if_true, Bool.false_eq_true, if_false] at missed
                    exact missed
  | returned => exact .stayed rfl

/-- The worker that the text is sent to promises the answer that it would give. -/
theorem take_sent {id : Nat} {unsent : List Nat} {tickets : List (Nat × Nat)}
    (gathers : Gathers answers source farm.workers reached (.sending (id :: unsent) tickets))
    {worker : Worker ε σ} (there : farm.workers[id]? = some worker) :
    Gathers answers source (farm.setWorker id (worker.send (.evaluate source)).2).workers
      (reached ++ [id]) (.sending unsent (tickets ++ [(id, worker.issued)])) := by
  cases gathers with
  | sending all sent asked fresh =>
      obtain ⟨unused, answer⟩ := (fresh id (.head _)).of_getElem? there
      have apart := notMem_of_range all
      refine .sending ?_ ?_ ?_ ?_
      · rw [Farm.size_setWorker, ← all]
        exact List.append_assoc _ _ _
      · rw [List.map_append, sent]
        rfl
      · intro entry member
        rcases List.mem_append.1 member with before | last
        · refine (asked entry before).set_ne (fun same => apart ?_) _
          rw [same, ← sent]
          exact List.mem_append_left _ (List.mem_map_of_mem before)
        · obtain rfl := List.mem_singleton.1 last
          exact ⟨_, Farm.getElem?_setWorker there _, answer ▸ unused.promises source⟩
      · intro other member
        refine (fresh other (.tail _ member)).set_ne (fun same => apart ?_) _
        exact same ▸ List.mem_append_right _ member

/-- A worker whose reply is there has given the outcome that it promised. -/
theorem take_received {id ticket : Nat} {rest : List (Nat × Nat)} {outcomes : List Outcome}
    (gathers : Gathers answers source farm.workers reached (.waiting ((id, ticket) :: rest) outcomes))
    {worker next : Worker ε σ} {outcome : Outcome} (there : farm.workers[id]? = some worker)
    (collected : worker.collect? ticket = some (.outcome outcome, next)) :
    Gathers answers source (farm.setWorker id next).workers reached
      (.waiting rest (outcomes ++ [outcome])) := by
  cases gathers with
  | waiting done all sent asked headed got =>
      have promises := (asked (id, ticket) (.head _)).of_getElem? there
      obtain ⟨_, answer, same⟩ := promises.collect? collected
      cases same
      rw [List.map_cons] at sent
      have apart := notMem_of_range sent
      refine .waiting (done ++ [id]) ?_ ?_ ?_ (fun _ => ?_) ?_
      · rw [Farm.size_setWorker, all]
      · rw [Farm.size_setWorker, ← sent]
        exact List.append_assoc _ _ _
      · intro entry later
        refine (asked entry (.tail _ later)).set_ne (fun same => apart ?_) _
        have waited : entry.1 ∈ rest.map Prod.fst := List.mem_map_of_mem later
        exact List.mem_append_right _ (same ▸ waited)
      · exact headed_concat sent headed fun _ none => by rw [answer] at none; cases none
      · simp [got, answer]

/-- A worker from which no reply can come gives no answer. If it is the first that is waited for, it is
worker 0. -/
theorem take_missed {id ticket : Nat} {rest : List (Nat × Nat)} {outcomes : List Outcome}
    (gathers : Gathers answers source farm.workers reached (.waiting ((id, ticket) :: rest) outcomes))
    {worker : Worker ε σ} (there : farm.workers[id]? = some worker)
    (absent : worker.collect? ticket = none) (idle : worker.step? farm.now = none) :
    Gathers answers source farm.workers reached
      (if outcomes.isEmpty then .returned (.error (.disconnected id))
        else .waiting rest outcomes) := by
  cases gathers with
  | waiting done all sent asked headed got =>
      have promises := (asked (id, ticket) (.head _)).of_getElem? there
      have silent := promises.eq_none_of_idle absent idle
      by_cases begun : done = []
      · subst begun
        obtain rfl : id = 0 := first_of_range sent
        rw [got]
        exact .returned all (by rw [silent])
      · obtain ⟨primary, others, -, split⟩ := exists_primary sent headed begun
        rw [got, split]
        refine .waiting (done ++ [id]) all ?_ (fun entry later => asked entry (.tail _ later))
          (fun _ => headed begun) ?_
        · rw [← sent]
          exact List.append_assoc _ _ _
        · simp [split, silent]

/-- When none is waited for any more, the first outcome is that of worker 0. -/
theorem take_told {workers : Array (Worker ε σ)} {primary : Outcome} {others : List Outcome}
    (gathers : Gathers answers source workers reached (.waiting [] (primary :: others))) :
    Gathers answers source workers reached (.returned (.ok primary)) := by
  cases gathers with
  | waiting done all sent asked headed got =>
      have begun : done ≠ [] := by
        intro none
        rw [none] at got
        cases got
      obtain ⟨first, rest, answer, split⟩ := exists_primary sent headed begun
      obtain ⟨rfl, -⟩ := List.cons.inj (got.trans split)
      exact .returned all (by rw [answer])

omit [Scene σ] [Evaluator ε σ] in
/-- The workers are the same when a failure has been told. -/
theorem workers_told (spare : Farm.Unheard listeners fun farm => farm.workers)
    (outcomes : List Outcome) (farm : Farm ε σ Audience) :
    (match Farm.firstError outcomes with
      | some message => farm.publish listeners (.evalError message)
      | none => farm).workers = farm.workers := by
  split
  · exact spare.publish _ _
  · rfl

theorem take (spare : Farm.Unheard listeners fun farm => farm.workers)
    (gathers : Gathers answers source farm.workers reached phase) {next : Call.Phase}
    {after : Farm ε σ Audience} (took : Took listeners source farm phase next after) :
    after.workers.size = farm.workers.size ∧ Gathers answers source after.workers
      (reached ++ (Call.unsent ⟨source, phase⟩).head?.toList) next := by
  cases took with
  | stayed sent =>
      rw [sent]
      exact ⟨rfl, by simpa using gathers⟩
  | sent there => exact ⟨Farm.size_setWorker .., gathers.take_sent there⟩
  | turned tickets =>
      cases gathers with
      | sending all sent asked fresh =>
          refine ⟨rfl, .waiting [] ?_ ?_ asked (absurd rfl ·) rfl⟩
          · simpa [Call.unsent] using all
          · simpa [sent] using all
  | received there collected =>
      refine ⟨Farm.size_setWorker .., ?_⟩
      simpa [Call.unsent] using gathers.take_received there collected
  | missed there absent idle =>
      refine ⟨rfl, ?_⟩
      simpa only [Call.unsent, List.head?_nil, Option.toList_none, List.append_nil] using
        gathers.take_missed there absent idle
  | told primary others =>
      rw [workers_told spare]
      exact ⟨rfl, by simpa [Call.unsent] using gathers.take_told⟩

/-- The answers stay what they are while a worker works. -/
theorem work {workers : Array (Worker ε σ)} (gathers : Gathers answers source workers reached phase)
    {id : Nat} {worker next : Worker ε σ} (there : workers[id]? = some worker) {now : Nat}
    {effects : List Effect} (stepped : worker.step? now = some (next, effects)) :
    Gathers answers source (workers.setIfInBounds id next) reached phase := by
  have size : (workers.setIfInBounds id next).size = workers.size := by simp
  cases gathers with
  | sending all sent asked fresh =>
      refine .sending (by rw [size, all]) sent (fun entry member => ?_) fun other member => ?_
      · exact (asked entry member).set there fun promises => promises.step stepped
      · exact (fresh other member).set there fun ⟨unused, answer⟩ =>
          ⟨unused.step stepped, (Worker.outcome?_step stepped source).trans answer⟩
  | waiting done all sent asked headed got =>
      refine .waiting done (by rw [size, all]) (by rw [size, sent]) (fun entry member => ?_) headed got
      exact (asked entry member).set there fun promises => promises.step stepped
  | returned all concluded => exact .returned (by rw [size, all]) concluded

end Gathers

end Gathering

end Evaluations

end RenderFarm
