import RenderFarm.Proofs.Evaluations.Moves

/-!
# The order in which texts are evaluated

Each worker evaluates what the calls send it in the order of its own queue, each text once, whatever
the interleaving. `Orderly` says so at every moment: the calls have sent their texts to the workers
from the first one on, each waits for the replies to tickets that are its own, and each worker has
evaluated the first of the texts that have arrived. Every access keeps it, unless a thread ends.
-/

namespace RenderFarm

namespace Evaluations

/-! ## Logs -/

@[simp] theorem arrivals_append (sends : List (Nat × Nat)) (number id other : Nat) :
    arrivals (sends ++ [(number, id)]) other =
      arrivals sends other ++ if id = other then [number] else [] := by
  simp only [arrivals, List.filter_append, List.map_append]
  by_cases same : id = other <;> simp [same]

@[simp] theorem recipients_append (sends : List (Nat × Nat)) (number id other : Nat) :
    recipients (sends ++ [(number, id)]) other =
      recipients sends other ++ if number = other then [id] else [] := by
  simp only [recipients, List.filter_append, List.map_append]
  by_cases same : number = other <;> simp [same]

@[simp] theorem served_append (services : List (Nat × String)) (source? : Option String)
    (id other : Nat) :
    served (services ++ (source?.map (Prod.mk id)).toList) other =
      served services other ++ if id = other then source?.toList else [] := by
  simp only [served, List.filter_append, List.map_append]
  cases source? with
  | none => simp
  | some source => by_cases same : id = other <;> simp [same]

theorem count_arrivals (sends : List (Nat × Nat)) (number id : Nat) :
    (arrivals sends id).count number = sends.count (number, id) := by
  induction sends with
  | nil => rfl
  | cons send rest ih =>
      obtain ⟨number', id'⟩ := send
      simp only [arrivals] at ih ⊢
      by_cases same : id' = id <;> simp [same, ih, List.count_cons, Prod.ext_iff]

theorem count_recipients (sends : List (Nat × Nat)) (number id : Nat) :
    (recipients sends number).count id = sends.count (number, id) := by
  induction sends with
  | nil => rfl
  | cons send rest ih =>
      obtain ⟨number', id'⟩ := send
      simp only [recipients] at ih ⊢
      by_cases same : number' = number <;> simp [same, ih, List.count_cons, Prod.ext_iff]

/-! ## What calls owe -/

/-- Some call waits for the reply to a ticket of worker `id`. -/
def Owed (calls : List Call) (id ticket : Nat) : Prop :=
  ∃ (number : Nat) (call : Call), calls[number]? = some call ∧ (id, ticket) ∈ call.tickets

/-- A call other than that of a number waits for the reply to a ticket of worker `id`. -/
def OwedBesides (calls : List Call) (number id ticket : Nat) : Prop :=
  ∃ (other : Nat) (call : Call), other ≠ number ∧ calls[other]? = some call ∧
    (id, ticket) ∈ call.tickets

theorem owed_set {calls : List Call} {number : Nat} (inside : number < calls.length) (next : Call)
    (id ticket : Nat) :
    Owed (calls.set number next) id ticket ↔
      (id, ticket) ∈ next.tickets ∨ OwedBesides calls number id ticket := by
  constructor
  · rintro ⟨other, call, found, member⟩
    by_cases same : number = other
    · subst same
      rw [List.getElem?_set_self inside, Option.some.injEq] at found
      exact .inl (found ▸ member)
    · rw [List.getElem?_set_ne same] at found
      exact .inr ⟨other, call, Ne.symm same, found, member⟩
  · rintro (member | ⟨other, call, different, found, member⟩)
    · exact ⟨number, next, List.getElem?_set_self inside, member⟩
    · exact ⟨other, call, by rwa [List.getElem?_set_ne (Ne.symm different)], member⟩

theorem owed_iff {calls : List Call} {number : Nat} {call : Call}
    (found : calls[number]? = some call) (id ticket : Nat) :
    Owed calls id ticket ↔ (id, ticket) ∈ call.tickets ∨ OwedBesides calls number id ticket := by
  obtain ⟨inside, here⟩ := List.getElem?_eq_some_iff.1 found
  have same : calls.set number call = calls := by rw [← here, List.set_getElem_self]
  have owed := owed_set inside call id ticket
  rwa [same] at owed

/-! ## The order of a queue -/

section Orderly

variable {ε σ Audience : Type} [Scene σ] [Evaluator ε σ]

/-- So many workers evaluate what the calls have sent them, all having held `base` at first. -/
structure Orderly (base : ε × Option σ) (sources : List String) (count : Nat)
    (workers : Array (Worker ε σ)) (calls : List Call) (sends : List (Nat × Nat))
    (services : List (Nat × String)) : Prop where
  size : workers.size = count
  texts : calls.map Call.source = sources
  /-- A call sends its text to all workers in turn. -/
  reached : ∀ (number : Nat) call, calls[number]? = some call →
    recipients sends number ++ call.unsent = List.range count
  senders : ∀ send ∈ sends, send.1 < calls.length
  once : ∀ (number : Nat) call, calls[number]? = some call →
    (call.tickets.map Prod.fst ++ call.unsent).Sublist (List.range count)
  apart : ∀ (number other : Nat) call call' entry, calls[number]? = some call →
    calls[other]? = some call' → entry ∈ call.tickets → entry ∈ call'.tickets → number = other
  tracks : ∀ (id : Nat) worker, workers[id]? = some worker →
    worker.Tracks base ((arrivals sends id).filterMap (sources[·]?)) (served services id)
      (Owed calls id)

namespace Orderly

variable {base : ε × Option σ} {sources : List String} {count : Nat}
  {workers : Array (Worker ε σ)} {calls : List Call} {sends : List (Nat × Nat)} {services : List (Nat × String)}
  {number id : Nat} {call next : Call} {worker worker' : Worker ε σ}

theorem source_eq (orderly : Orderly base sources count workers calls sends services)
    (found : calls[number]? = some call) : sources[number]? = some call.source := by
  rw [← orderly.texts, List.getElem?_map, found, Option.map_some]

theorem not_owedBesides (orderly : Orderly base sources count workers calls sends services)
    (found : calls[number]? = some call) {entry : Nat × Nat} (member : entry ∈ call.tickets) :
    ¬OwedBesides calls number entry.1 entry.2 := by
  rintro ⟨other, call', different, found', member'⟩
  exact different (orderly.apart _ _ _ _ _ found' found member' member)

/-- What is to be shown when call `number` takes a step. -/
theorem replace (orderly : Orderly base sources count workers calls sends services)
    (found : calls[number]? = some call) (source : next.source = call.source)
    {workers' : Array (Worker ε σ)} {sends' : List (Nat × Nat)}
    (size : workers'.size = workers.size)
    (reached : recipients sends' number ++ next.unsent = List.range count)
    (others : ∀ other, other ≠ number → recipients sends' other = recipients sends other)
    (senders : ∀ send ∈ sends', send.1 < calls.length)
    (once : (next.tickets.map Prod.fst ++ next.unsent).Sublist (List.range count))
    (apart : ∀ entry ∈ next.tickets, ¬OwedBesides calls number entry.1 entry.2)
    (tracks : ∀ (id : Nat) worker, workers'[id]? = some worker →
      worker.Tracks base ((arrivals sends' id).filterMap (sources[·]?)) (served services id)
        (Owed (calls.set number next) id)) :
    Orderly base sources count workers' (calls.set number next) sends' services := by
  obtain ⟨inside, -⟩ := List.getElem?_eq_some_iff.1 found
  have split : ∀ {other : Nat} {call' : Call}, (calls.set number next)[other]? = some call' →
      other = number ∧ call' = next ∨ other ≠ number ∧ calls[other]? = some call' := by
    intro other call' there
    by_cases same : number = other
    · subst same
      rw [List.getElem?_set_self inside, Option.some.injEq] at there
      exact .inl ⟨rfl, there.symm⟩
    · rw [List.getElem?_set_ne same] at there
      exact .inr ⟨Ne.symm same, there⟩
  refine ⟨size.trans orderly.size, ?_, ?_, by simpa using senders, ?_, ?_, tracks⟩
  · rw [List.map_set, orderly.texts]
    refine List.ext_getElem? fun other => ?_
    by_cases same : number = other
    · subst same
      rw [List.getElem?_set_self (by rw [← orderly.texts]; simpa using inside), source,
        orderly.source_eq found]
    · rw [List.getElem?_set_ne same]
  · intro other call' there
    rcases split there with ⟨rfl, rfl⟩ | ⟨different, there⟩
    · exact reached
    · rw [others other different]
      exact orderly.reached other call' there
  · intro other call' there
    rcases split there with ⟨rfl, rfl⟩ | ⟨-, there⟩
    · exact once
    · exact orderly.once other call' there
  · intro first second call' call'' entry there there' member member'
    rcases split there with ⟨rfl, rfl⟩ | ⟨different, kept⟩ <;>
      rcases split there' with ⟨rfl, rfl⟩ | ⟨different', kept'⟩
    · rfl
    · exact (apart entry member ⟨second, call'', different', kept', member'⟩).elim
    · exact (apart entry member' ⟨first, call', different, kept, member⟩).elim
    · exact orderly.apart first second call' call'' entry kept kept' member member'

/-- A call that goes on without sending or receiving anything. -/
theorem quiet (orderly : Orderly base sources count workers calls sends services)
    (found : calls[number]? = some call) (source : next.source = call.source)
    (unsent : next.unsent = call.unsent) (tickets : next.tickets = call.tickets) :
    Orderly base sources count workers (calls.set number next) sends services := by
  obtain ⟨inside, -⟩ := List.getElem?_eq_some_iff.1 found
  refine orderly.replace found source rfl ?_ (fun _ _ => rfl) orderly.senders ?_ ?_ ?_
  · rw [unsent]
    exact orderly.reached number call found
  · rw [unsent, tickets]
    exact orderly.once number call found
  · intro entry member
    exact orderly.not_owedBesides found (tickets ▸ member)
  · intro id worker there
    have owed : Owed (calls.set number next) id = Owed calls id := by
      funext ticket
      rw [owed_set inside, owed_iff found, tickets]
    rw [owed]
    exact orderly.tracks id worker there

/-- A call sends its text to the next worker. -/
theorem sent (orderly : Orderly base sources count workers calls sends services)
    (found : calls[number]? = some call) (source : next.source = call.source)
    (unsent : call.unsent = id :: next.unsent) (there : workers[id]? = some worker)
    (tickets : next.tickets = call.tickets ++ [(id, worker.issued)]) :
    Orderly base sources count (workers.setIfInBounds id (worker.send (.evaluate call.source)).2)
      (calls.set number next) (sends ++ [(number, id)]) services := by
  obtain ⟨inside, -⟩ := List.getElem?_eq_some_iff.1 found
  obtain ⟨placed, -⟩ := Array.getElem?_eq_some_iff.1 there
  have tracks := orderly.tracks id worker there
  have unowed : ¬Owed calls id worker.issued :=
    fun owes => Nat.lt_irrefl _ (tracks.lt_issued owes)
  have owed : ∀ other ticket, Owed (calls.set number next) other ticket ↔
      Owed calls other ticket ∨ other = id ∧ ticket = worker.issued := by
    intro other ticket
    rw [owed_set inside, owed_iff found, tickets, List.mem_append, List.mem_singleton,
      Prod.mk.injEq]
    exact or_right_comm
  refine orderly.replace found source (by simp) ?_ ?_ ?_ ?_ ?_ ?_
  · rw [recipients_append, if_pos rfl, List.append_assoc, List.singleton_append, ← unsent]
    exact orderly.reached number call found
  · intro other different
    rw [recipients_append, if_neg (Ne.symm different), List.append_nil]
  · intro send member
    rcases List.mem_append.1 member with before | last
    · exact orderly.senders send before
    · rw [List.mem_singleton.1 last]
      exact inside
  · rw [tickets, List.map_append, List.map_singleton, List.append_assoc, List.singleton_append,
      ← unsent]
    exact orderly.once number call found
  · intro entry member
    rw [tickets, List.mem_append, List.mem_singleton] at member
    rcases member with before | rfl
    · exact orderly.not_owedBesides found before
    · intro besides
      exact unowed ((owed_iff found _ _).2 (.inr besides))
  · intro other worker' there'
    rw [arrivals_append, List.filterMap_append]
    by_cases same : id = other
    · subst same
      rw [Array.getElem?_setIfInBounds_self_of_lt placed, Option.some.injEq] at there'
      subst there'
      have arrived : [number].filterMap (sources[·]?) = [call.source] := by
        simp [orderly.source_eq found]
      rw [if_pos rfl, arrived]
      refine tracks.send call.source fun ticket => ?_
      rw [owed]
      simp
    · rw [Array.getElem?_setIfInBounds_ne same] at there'
      have owed' : Owed (calls.set number next) other = Owed calls other := by
        funext ticket
        rw [owed]
        simp [Ne.symm same]
      rw [if_neg same, List.filterMap_nil, List.append_nil, owed']
      exact orderly.tracks other worker' there'

/-- A call takes an outcome that it waits for. -/
theorem collected (orderly : Orderly base sources count workers calls sends services)
    (found : calls[number]? = some call) (source : next.source = call.source)
    (unsent : next.unsent = call.unsent) {ticket : Nat}
    (tickets : call.tickets = (id, ticket) :: next.tickets) (there : workers[id]? = some worker)
    {reply : Reply} (got : worker.collect? ticket = some (reply, worker')) :
    Orderly base sources count (workers.setIfInBounds id worker') (calls.set number next) sends
      services := by
  obtain ⟨inside, -⟩ := List.getElem?_eq_some_iff.1 found
  obtain ⟨placed, -⟩ := Array.getElem?_eq_some_iff.1 there
  have once := orderly.once number call found
  have member : (id, ticket) ∈ call.tickets := by rw [tickets]; exact .head _
  have settled : (id, ticket) ∉ next.tickets := by
    intro again
    have distinct := (List.nodup_append.1 (once.nodup List.nodup_range)).1
    rw [tickets, List.map_cons, List.nodup_cons] at distinct
    exact distinct.1 (List.mem_map.2 ⟨_, again, rfl⟩)
  have besides := orderly.not_owedBesides found member
  have owed : ∀ other ticket', Owed (calls.set number next) other ticket' ↔
      Owed calls other ticket' ∧ ¬(other = id ∧ ticket' = ticket) := by
    intro other ticket'
    rw [owed_set inside, owed_iff found, tickets, List.mem_cons, Prod.mk.injEq]
    constructor
    · rintro (later | elsewhere)
      · refine ⟨.inl (.inr later), ?_⟩
        rintro ⟨rfl, rfl⟩
        exact settled later
      · refine ⟨.inr elsewhere, ?_⟩
        rintro ⟨rfl, rfl⟩
        exact besides elsewhere
    · rintro ⟨(here | later) | elsewhere, different⟩
      · exact (different here).elim
      · exact .inl later
      · exact .inr elsewhere
  refine orderly.replace found source (by simp) ?_ (fun _ _ => rfl) orderly.senders ?_ ?_ ?_
  · rw [unsent]
    exact orderly.reached number call found
  · rw [tickets, List.map_cons, List.cons_append] at once
    rw [unsent]
    exact (List.sublist_cons_self _ _).trans once
  · intro entry later
    exact orderly.not_owedBesides found (by rw [tickets]; exact .tail _ later)
  · intro other worker'' there'
    by_cases same : id = other
    · subst same
      rw [Array.getElem?_setIfInBounds_self_of_lt placed, Option.some.injEq] at there'
      subst there'
      refine ((orderly.tracks id worker there).collect? ?_ got fun ticket' => ?_).2
      · exact (owed_iff found _ _).2 (.inl member)
      · rw [owed]
        simp
    · rw [Array.getElem?_setIfInBounds_ne same] at there'
      have owed' : Owed (calls.set number next) other = Owed calls other := by
        funext ticket'
        rw [owed]
        simp [Ne.symm same]
      rw [owed']
      exact orderly.tracks other worker'' there'

/-- The thread of a worker takes a step, and evaluates the text in its hands if there is one. -/
theorem worked (orderly : Orderly base sources count workers calls sends services)
    (there : workers[id]? = some worker) {now : Nat} {effects : List Effect}
    (stepped : worker.step? now = some (worker', effects)) :
    worker'.thread = .ended ∨ Orderly base sources count (workers.setIfInBounds id worker') calls sends
      (services ++ (worker.thread.source?.map (Prod.mk id)).toList) := by
  obtain ⟨placed, -⟩ := Array.getElem?_eq_some_iff.1 there
  refine ((orderly.tracks id worker there).step stepped).imp_right fun tracks => ?_
  refine ⟨by simpa using orderly.size, orderly.texts, orderly.reached, orderly.senders,
    orderly.once, orderly.apart, ?_⟩
  intro other worker'' there'
  rw [served_append]
  by_cases same : id = other
  · subst same
    rw [Array.getElem?_setIfInBounds_self_of_lt placed, Option.some.injEq] at there'
    subst there'
    rw [if_pos rfl]
    exact tracks
  · rw [Array.getElem?_setIfInBounds_ne same] at there'
    rw [if_neg same, List.append_nil]
    exact orderly.tracks other worker'' there'

/-- A worker that a call is about to send its text to is there. -/
theorem there_of_unsent (orderly : Orderly base sources count workers calls sends services)
    (found : calls[number]? = some call) (member : id ∈ call.unsent) :
    ∃ worker, workers[id]? = some worker := by
  have among := (orderly.once number call found).subset (List.mem_append_right _ member)
  have inside : id < workers.size := orderly.size ▸ List.mem_range.1 among
  exact ⟨_, Array.getElem?_eq_getElem inside⟩

/-- A worker that a call waits for is there. -/
theorem there_of_tickets (orderly : Orderly base sources count workers calls sends services)
    (found : calls[number]? = some call) {entry : Nat × Nat} (member : entry ∈ call.tickets) :
    ∃ worker, workers[entry.1]? = some worker := by
  have among := (orderly.once number call found).subset
    (List.mem_append_left _ (List.mem_map_of_mem member))
  have inside : entry.1 < workers.size := orderly.size ▸ List.mem_range.1 among
  exact ⟨_, Array.getElem?_eq_getElem inside⟩

/-- A call waits for an outcome, or takes it. -/
theorem poll? {farm : Farm ε σ Audience}
    (orderly : Orderly base sources count farm.workers calls sends services)
    (found : calls[number]? = some call) {entry : Nat × Nat} (member : entry ∈ call.tickets) :
    farm.poll? entry.1 entry.2 = none ∨ ∃ worker outcome worker',
      farm.workers[entry.1]? = some worker ∧
      worker.collect? entry.2 = some (.outcome outcome, worker') ∧
      farm.poll? entry.1 entry.2 = some (.ok outcome, farm.setWorker entry.1 worker') := by
  obtain ⟨worker, there⟩ := orderly.there_of_tickets found member
  have tracks := orderly.tracks entry.1 worker there
  have owes : Owed calls entry.1 entry.2 := (owed_iff found _ _).2 (.inl member)
  cases got : worker.collect? entry.2 with
  | none =>
      left
      simp only [Farm.poll?, there, got, tracks.step?_isSome owes got, if_true]
  | some collected =>
      obtain ⟨reply, worker'⟩ := collected
      obtain ⟨⟨outcome, rfl⟩, -⟩ := tracks.collect? owes got fun _ => Iff.rfl
      right
      exact ⟨worker, outcome, worker', there, got, by simp only [Farm.poll?, there, got]⟩

/-- A step of a call keeps the order. -/
theorem stepCall {listeners : Listeners ε σ Audience} {farm : Farm ε σ Audience}
    (spare : Farm.Unheard listeners fun farm => farm.workers)
    (orderly : Orderly base sources count farm.workers calls sends services)
    (found : calls[number]? = some call) :
    Orderly base sources count (Farm.stepCall listeners call.source call.phase farm).2.workers
      (calls.set number
        { call with phase := (Farm.stepCall listeners call.source call.phase farm).1 })
      (sends ++ (call.unsent.head?.map (Prod.mk number)).toList) services := by
  obtain ⟨source, phase⟩ := call
  cases phase with
  | sending unsent tickets =>
      cases unsent with
      | nil =>
          simp only [Farm.stepCall, Call.unsent, List.head?_nil, Option.map_none,
            Option.toList_none, List.append_nil]
          exact orderly.quiet found rfl rfl rfl
      | cons id unsent =>
          obtain ⟨worker, there⟩ := orderly.there_of_unsent found (.head _)
          simp only [Farm.stepCall, Farm.send, there]
          exact orderly.sent found rfl rfl there rfl
  | waiting tickets outcomes =>
      simp only [Call.unsent, List.head?_nil, Option.map_none, Option.toList_none, List.append_nil]
      cases tickets with
      | nil =>
          cases outcomes with
          | nil => exact orderly.quiet found rfl rfl rfl
          | cons primary others =>
              simp only [Farm.stepCall]
              split
              · rw [spare.publish]
                exact orderly.quiet found rfl rfl rfl
              · exact orderly.quiet found rfl rfl rfl
      | cons entry rest =>
          rcases orderly.poll? found (.head _) with blocked |
            ⟨worker, outcome, worker', there, got, polled⟩
          · simp only [Farm.stepCall, blocked]
            exact orderly.quiet found rfl rfl rfl
          · simp only [Farm.stepCall, polled]
            exact orderly.collected found rfl rfl rfl there got
  | returned result =>
      simp only [Farm.stepCall, Call.unsent, List.head?_nil, Option.map_none, Option.toList_none,
        List.append_nil]
      exact orderly.quiet found rfl rfl rfl

end Orderly

end Orderly

end Evaluations

end RenderFarm
