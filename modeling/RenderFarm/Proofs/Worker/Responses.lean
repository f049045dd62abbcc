import RenderFarm.Proofs.Worker.Deaths

/-!
# What a worker comes to do

What a worker makes of operations is a function of the operations alone: `respond` gives the reply to
the next one, the states that the worker goes through and the texts that its engine writes, from the
engine and the scene that the thread was left with. No thread, queue or ticket occurs in it.

At any moment a worker has an outlook: what it will still make of the request in its hands and of those
that are queued. A step of the thread only moves the first part of the outlook into the past
(`Moved.conserves`), and a request that is queued adds its response at the end (`outlook_send`). So
whatever is shown, written and replied, early or late, adds up to the responses.
-/

namespace RenderFarm

/-- The text that is written, if one is. -/
def Effect.text? : Effect → Option String
  | .wrote text => some text
  | .reported _ => none

namespace Worker

variable {ε σ : Type}

/-- What is done with the handle of a worker. -/
inductive Operation (ε : Type) where
  | init (load : Load ε)
  | request (request : Request)

/-- What a worker is left with between operations: an engine and perhaps a scene, or nothing when no
thread takes requests up. -/
abbrev Standing (ε σ : Type) :=
  Option (ε × Option σ)

/-- What comes of one operation. -/
structure Response where
  /-- Nothing when the worker is disconnected. -/
  reply : Option Reply
  /-- The states that the worker moves to. -/
  states : List Worker.State
  /-- What the engine writes. -/
  writes : List String
  /-- The request, if it is taken up. -/
  served : List Request

/-- What comes of a load. -/
def responseTo : Load ε → Response
  | .engine _ => ⟨some (.loaded none), [.loading, .loaded], [], []⟩
  | .failure message => ⟨some (.loaded (some message)), [.loading], [], []⟩
  | .panic => ⟨none, [.loading], [], []⟩

/-- What a load leaves; a new engine has no scene. -/
def standingOf : Load ε → Standing ε σ
  | .engine engine => some (engine, none)
  | .failure _ | .panic => none

variable [Scene σ] [Evaluator ε σ]

/-- A request is answered by the engine and the scene that are there; a panic leaves nothing. -/
def respondRequest (request : Request) : Standing ε σ → Response × Standing ε σ
  | none => (⟨none, [], [], []⟩, none)
  | some (engine, scene) =>
    match answer? engine scene request with
    | none => (⟨none, request.activity?.toList, writes engine request, [request]⟩, none)
    | some (reply, held) =>
      let states := request.activity?.toList ++ (request.activity?.map fun _ => .idle).toList
      (⟨some reply, states, writes engine request, [request]⟩, some held)

/-- What comes of an operation, and what is there afterwards. -/
def respond (standing : Standing ε σ) : Operation ε → Response × Standing ε σ
  | .init load => (responseTo load, standingOf load)
  | .request request => respondRequest request standing

/-- What comes of operations that are carried out one after the other, each with its label. -/
def transcript {α : Type} (standing : Standing ε σ) :
    List (α × Operation ε) → List (α × Response)
  | [] => []
  | (label, operation) :: rest =>
    (label, (respond standing operation).1) :: transcript (respond standing operation).2 rest

/-- What is there after them. -/
def standingAfter {α : Type} (standing : Standing ε σ) (operations : List (α × Operation ε)) :
    Standing ε σ :=
  operations.foldl (fun standing entry => (respond standing entry.2).2) standing

section Transcripts

variable {α : Type}

/-- The replies that come, each with its label. -/
def told (entries : List (α × Response)) : List (α × Reply) :=
  entries.filterMap fun entry => entry.2.reply.map fun reply => (entry.1, reply)

def statesOf (entries : List (α × Response)) : List Worker.State :=
  entries.flatMap fun entry => entry.2.states

def writesOf (entries : List (α × Response)) : List String :=
  entries.flatMap fun entry => entry.2.writes

def servedOf (entries : List (α × Response)) : List Request :=
  entries.flatMap fun entry => entry.2.served

theorem mem_told {entries : List (α × Response)} {label : α} {reply : Reply} :
    (label, reply) ∈ told entries ↔
      ∃ response, (label, response) ∈ entries ∧ response.reply = some reply := by
  simp only [told, List.mem_filterMap, Option.map_eq_some_iff, Prod.mk.injEq]
  constructor
  · rintro ⟨⟨_, response⟩, member, _, same, rfl, rfl⟩
    exact ⟨response, member, same⟩
  · rintro ⟨response, member, same⟩
    exact ⟨_, member, reply, same, rfl, rfl⟩

@[simp]
theorem told_nil : told ([] : List (α × Response)) = [] :=
  rfl

@[simp]
theorem statesOf_nil : statesOf ([] : List (α × Response)) = [] :=
  rfl

@[simp]
theorem writesOf_nil : writesOf ([] : List (α × Response)) = [] :=
  rfl

@[simp]
theorem servedOf_nil : servedOf ([] : List (α × Response)) = [] :=
  rfl

section Cons

variable (label : α) (response : Response) (rest : List (α × Response))

@[simp]
theorem told_cons : told ((label, response) :: rest) =
    (response.reply.map fun reply => (label, reply)).toList ++ told rest := by
  cases same : response.reply <;> simp [told, same]

@[simp]
theorem statesOf_cons :
    statesOf ((label, response) :: rest) = response.states ++ statesOf rest :=
  List.flatMap_cons

@[simp]
theorem writesOf_cons :
    writesOf ((label, response) :: rest) = response.writes ++ writesOf rest :=
  List.flatMap_cons

@[simp]
theorem servedOf_cons :
    servedOf ((label, response) :: rest) = response.served ++ servedOf rest :=
  List.flatMap_cons

end Cons

@[simp]
theorem told_append (entries more : List (α × Response)) :
    told (entries ++ more) = told entries ++ told more :=
  List.filterMap_append

theorem map_fst_told_sublist (entries : List (α × Response)) :
    ((told entries).map Prod.fst).Sublist (entries.map Prod.fst) := by
  induction entries with
  | nil => exact .slnil
  | cons entry rest ih =>
      obtain ⟨label, response⟩ := entry
      rw [told_cons, List.map_append, List.map_cons]
      cases response.reply with
      | none => exact ih.cons _
      | some reply => exact ih.cons_cons _

theorem statesOf_append (entries more : List (α × Response)) :
    statesOf (entries ++ more) = statesOf entries ++ statesOf more :=
  List.flatMap_append

theorem writesOf_append (entries more : List (α × Response)) :
    writesOf (entries ++ more) = writesOf entries ++ writesOf more :=
  List.flatMap_append

theorem servedOf_append (entries more : List (α × Response)) :
    servedOf (entries ++ more) = servedOf entries ++ servedOf more :=
  List.flatMap_append

variable (standing : Standing ε σ) (operations more : List (α × Operation ε))

theorem transcript_append : transcript standing (operations ++ more) =
    transcript standing operations ++ transcript (standingAfter standing operations) more := by
  induction operations generalizing standing with
  | nil => rfl
  | cons entry rest ih => exact congrArg _ (ih _)

theorem standingAfter_append : standingAfter standing (operations ++ more) =
    standingAfter (standingAfter standing operations) more :=
  List.foldl_append

@[simp]
theorem map_fst_transcript :
    (transcript standing operations).map Prod.fst = operations.map Prod.fst := by
  induction operations generalizing standing with
  | nil => rfl
  | cons entry rest ih => exact congrArg _ (ih _)

/-- Only what was asked for is replied to. -/
theorem mem_of_mem_told {label : α} {reply : Reply}
    (member : (label, reply) ∈ told (transcript standing operations)) :
    label ∈ operations.map Prod.fst := by
  rw [← map_fst_transcript standing]
  exact (map_fst_told_sublist _).subset (List.mem_map_of_mem member)

end Transcripts

/-! ## The outlook of a worker -/

end Worker

/-- What a thread will still make of the request in its hands, and what it is left with. -/
def Thread.outlook {ε σ : Type} [Scene σ] [Evaluator ε σ] :
    Thread ε σ → List (Nat × Worker.Response) × Worker.Standing ε σ
  | .absent | .ended => ([], none)
  | .starting load ticket => ([(ticket, Worker.responseTo load)], Worker.standingOf load)
  | .loading load ticket =>
    let response := Worker.responseTo load
    ([(ticket, { response with states := response.states.tail })], Worker.standingOf load)
  | .ready engine scene => ([], some (engine, scene))
  | .serving engine scene ticket request =>
    let written := Worker.writes engine request
    match Worker.answer? engine scene request with
    | none => ([(ticket, ⟨none, [], written, []⟩)], none)
    | some (reply, held) => ([(ticket, ⟨some reply, [.idle], written, []⟩)], some held)
  | .replying engine scene ticket reply =>
    ([(ticket, ⟨some reply, [.idle], [], []⟩)], some (engine, scene))

namespace Worker

variable {ε σ : Type}

/-- What a queue of requests asks for. -/
def queued (inbox : List (Nat × Request)) : List (Nat × Operation ε) :=
  inbox.map fun entry => (entry.1, .request entry.2)

/-- The state that the next step of the thread announces. -/
def announcement? (worker : Worker ε σ) : Option Worker.State :=
  match worker.thread with
  | .starting .. => some .loading
  | .loading (.engine _) _ => some .loaded
  | .ready .. => worker.inbox.head?.bind fun entry => entry.2.activity?
  | .replying .. => some .idle
  | _ => none

/-- The request that the next step of the thread takes up. -/
def taking? (worker : Worker ε σ) : Option Request :=
  match worker.thread with
  | .ready .. => worker.inbox.head?.map Prod.snd
  | _ => none

variable [Scene σ] [Evaluator ε σ]

/-- What the worker will still make of what it was asked for. -/
def outlook (worker : Worker ε σ) : List (Nat × Response) :=
  worker.thread.outlook.1 ++ transcript worker.thread.outlook.2 (queued worker.inbox)

/-- What the worker will be left with. -/
def prospect (worker : Worker ε σ) : Standing ε σ :=
  standingAfter worker.thread.outlook.2 (queued worker.inbox)

theorem map_fst_outlook (worker : Worker ε σ) :
    worker.outlook.map Prod.fst = worker.underway := by
  have tickets : (queued worker.inbox : List (Nat × Operation ε)).map Prod.fst =
      worker.inbox.map Prod.fst := by
    simp [queued]
  rw [outlook, List.map_append, map_fst_transcript, tickets, underway]
  cases worker.thread with
  | serving engine scene ticket request =>
      cases answer : answer? engine scene request <;> simp [Thread.ticket?, Thread.outlook, answer]
  | _ => simp [Thread.ticket?, Thread.outlook]

/-- Without a thread requests come to nothing. -/
theorem transcript_none (inbox : List (Nat × Request)) :
    let entries := transcript (none : Standing ε σ) (queued inbox)
    told entries = [] ∧ statesOf entries = [] ∧ writesOf entries = [] ∧ servedOf entries = [] := by
  induction inbox with
  | nil => exact ⟨rfl, rfl, rfl, rfl⟩
  | cons entry rest ih => exact ih

theorem standingAfter_none (inbox : List (Nat × Request)) :
    standingAfter (none : Standing ε σ) (queued inbox) = none := by
  induction inbox with
  | nil => rfl
  | cons entry rest ih => exact ih

theorem outlook_of_thread {worker : Worker ε σ} {head : List (Nat × Response)}
    {standing : Standing ε σ} (stage : worker.thread.outlook = (head, standing)) :
    worker.outlook = head ++ transcript standing (queued worker.inbox) ∧
      worker.prospect = standingAfter standing (queued worker.inbox) := by
  simp only [outlook, prospect, stage, and_self]

/-- The outlook of a thread that waits begins with its response to the oldest request. -/
theorem outlook_of_ready {worker : Worker ε σ} {engine : ε} {scene : Option σ} {ticket : Nat}
    {request : Request} {rest : List (Nat × Request)} (stage : worker.thread = .ready engine scene)
    (inbox : worker.inbox = (ticket, request) :: rest) {response : Response}
    {standing : Standing ε σ}
    (responds : respondRequest request (some (engine, scene)) = (response, standing)) :
    worker.outlook = (ticket, response) :: transcript standing (queued rest) ∧
      worker.prospect = standingAfter standing (queued rest) := by
  have first : respond (some (engine, scene)) (.request request) = (response, standing) := responds
  simp [outlook, prospect, stage, inbox, queued, Thread.outlook, transcript, standingAfter, first]

/-- What is still to come of a request that has been announced. -/
theorem outlook_serving (engine : ε) (scene : Option σ) (ticket : Nat) {request : Request}
    {state : Worker.State} (announced : request.activity? = some state) {response : Response}
    {standing : Standing ε σ}
    (responds : respondRequest request (some (engine, scene)) = (response, standing)) :
    ∃ states, response.states = state :: states ∧ response.served = [request] ∧
      Thread.outlook (.serving engine scene ticket request) =
        ([(ticket, { response with states := states, served := [] })], standing) := by
  cases answer : answer? engine scene request <;>
    simp only [respondRequest, answer, announced, Prod.mk.injEq] at responds <;>
    obtain ⟨rfl, rfl⟩ := responds <;>
    simp [Thread.outlook, answer]

/-- What a step takes from the outlook of a worker passes into what is seen of it. -/
structure Conserves (worker next : Worker ε σ) (effects : List Effect) : Prop where
  replies : next.outbox ++ told next.outlook = worker.outbox ++ told worker.outlook
  states : worker.announcement?.toList ++ statesOf next.outlook = statesOf worker.outlook
  writes : effects.filterMap Effect.text? ++ writesOf next.outlook = writesOf worker.outlook
  served : worker.taking?.toList ++ servedOf next.outlook = servedOf worker.outlook
  prospect : next.prospect = worker.prospect

omit [Scene σ] [Evaluator ε σ] in
/-- What is announced is not written. -/
@[simp]
theorem filterMap_text?_announce (worker : Worker ε σ) (now : Nat) (state : Worker.State) :
    (worker.announce now state).2.filterMap Effect.text? = [] := by
  simp only [announce]
  cases (worker.machine.transition now state).2 <;> rfl

/-- A step that leaves `remaining` of what was to come first. -/
theorem conserves_of_outlook {worker next : Worker ε σ} {effects : List Effect} {ticket : Nat}
    {response : Response} {remaining rest : List (Nat × Response)} {sent : List (Nat × Reply)}
    (before : worker.outlook = (ticket, response) :: rest)
    (after : next.outlook = remaining ++ rest) (prospect : next.prospect = worker.prospect)
    (outbox : next.outbox = worker.outbox ++ sent)
    (reply : sent ++ told remaining = (response.reply.map fun reply => (ticket, reply)).toList)
    (states : worker.announcement?.toList ++ statesOf remaining = response.states)
    (writes : effects.filterMap Effect.text? ++ writesOf remaining = response.writes)
    (served : worker.taking?.toList ++ servedOf remaining = response.served) :
    worker.Conserves next effects where
  replies := by
    rw [before, after, outbox, told_append, told_cons, ← reply, List.append_assoc,
      List.append_assoc]
  states := by rw [before, after, statesOf_append, statesOf_cons, ← states, List.append_assoc]
  writes := by rw [before, after, writesOf_append, writesOf_cons, ← writes, List.append_assoc]
  served := by rw [before, after, servedOf_append, servedOf_cons, ← served, List.append_assoc]
  prospect := prospect

/-- A step that ends the thread leaves nothing to come, which is also what was to come of the rest. -/
theorem conserves_of_retire {worker next : Worker ε σ} {effects : List Effect} {ticket : Nat}
    {response : Response} {sent : List (Nat × Reply)} {inbox : List (Nat × Request)}
    (before : worker.outlook = (ticket, response) ::
      transcript (none : Standing ε σ) (queued inbox))
    (prospect : worker.prospect = none)
    (ended : next.thread = .ended) (emptied : next.inbox = [])
    (outbox : next.outbox = worker.outbox ++ sent)
    (reply : sent = (response.reply.map fun reply => (ticket, reply)).toList)
    (states : worker.announcement?.toList = response.states)
    (writes : effects.filterMap Effect.text? = response.writes)
    (served : worker.taking?.toList = response.served) : worker.Conserves next effects := by
  obtain ⟨noReplies, noStates, noWrites, noneServed⟩ := transcript_none (ε := ε) (σ := σ) inbox
  have after : next.outlook = [] := by
    simp [outlook, queued, ended, emptied, Thread.outlook, transcript]
  constructor
  · rw [before, after, outbox, told_cons, noReplies, reply, List.append_nil]
    exact List.append_nil _
  · rw [before, after, statesOf_cons, noStates, states]
    rfl
  · rw [before, after, writesOf_cons, noWrites, writes]
    rfl
  · rw [before, after, servedOf_cons, noneServed, served]
    rfl
  · rw [prospect]
    simp [Worker.prospect, queued, ended, emptied, Thread.outlook, standingAfter]

/-- Each step of a thread passes the first part of the outlook into what is seen. -/
theorem step_conserves {worker next : Worker ε σ} {now : Nat} {effects : List Effect}
    (stepped : worker.step? now = some (next, effects)) : worker.Conserves next effects := by
  cases stepped_of_step? stepped with
  | @started load ticket stage =>
      obtain ⟨before, prospect⟩ := outlook_of_thread (congrArg Thread.outlook stage)
      refine conserves_of_outlook before (List.singleton_append ..).symm prospect.symm
        (List.append_nil _).symm ?_ ?_ ?_ ?_
      · simp
      · cases load <;> simp [announcement?, stage, responseTo]
      · simp
      · simp [taking?, stage]
  | @loaded engine ticket stage =>
      obtain ⟨before, prospect⟩ := outlook_of_thread (congrArg Thread.outlook stage)
      refine conserves_of_outlook before (List.nil_append _).symm prospect.symm rfl ?_ ?_ ?_ ?_
      · simp [responseTo]
      · simp [announcement?, stage, responseTo]
      · simp [responseTo]
      · simp [taking?, stage, responseTo]
  | @failed message ticket stage =>
      obtain ⟨before, prospect⟩ := outlook_of_thread (congrArg Thread.outlook stage)
      refine conserves_of_retire before (prospect.trans (standingAfter_none _)) rfl rfl rfl rfl ?_
        rfl ?_
      · simp [announcement?, stage, responseTo]
      · simp [taking?, stage, responseTo]
  | @crashed ticket stage =>
      obtain ⟨before, prospect⟩ := outlook_of_thread (congrArg Thread.outlook stage)
      refine conserves_of_retire before (prospect.trans (standingAfter_none _)) rfl rfl
        (List.append_nil _).symm rfl ?_ rfl ?_
      · simp [announcement?, stage, responseTo]
      · simp [taking?, stage, responseTo]
  | @taken engine scene ticket request rest state stage inbox announced =>
      cases responds : respondRequest request (some (engine, scene)) with
      | mk response standing =>
          obtain ⟨before, prospect⟩ := outlook_of_ready stage inbox responds
          obtain ⟨states, goes, served, remains⟩ :=
            outlook_serving engine scene ticket announced responds
          let serving : Worker ε σ :=
            { worker with inbox := rest, thread := .serving engine scene ticket request }
          have thread : serving.thread.outlook = _ := remains
          obtain ⟨after, unchanged⟩ := outlook_of_thread thread
          refine conserves_of_outlook before after (unchanged.trans prospect.symm)
            (List.append_nil _).symm ?_ ?_ ?_ ?_
          · simp
          · simp [announcement?, stage, inbox, announced, goes]
          · simp
          · simp [taking?, stage, inbox, served]
  | @named engine scene ticket rest reply stage inbox told =>
      have responds : respondRequest .names (some (engine, scene)) =
          (⟨some reply, [], [], [.names]⟩, some (engine, scene)) := by
        simp [respondRequest, answer?, told, Request.activity?, writes]
      obtain ⟨before, prospect⟩ := outlook_of_ready stage inbox responds
      refine conserves_of_outlook before (List.nil_append _).symm prospect.symm rfl ?_ ?_ ?_ ?_
      · simp
      · simp [announcement?, stage, inbox, Request.activity?]
      · simp
      · simp [taking?, stage, inbox]
  | @stunned engine scene ticket rest stage inbox panicked =>
      have responds : respondRequest .names (some (engine, scene)) =
          (⟨none, [], [], [.names]⟩, none) := by
        simp [respondRequest, answer?, panicked, Request.activity?, writes]
      obtain ⟨before, prospect⟩ := outlook_of_ready stage inbox responds
      refine conserves_of_retire before (prospect.trans (standingAfter_none _)) rfl rfl
        (List.append_nil _).symm rfl ?_ rfl ?_
      · simp [announcement?, stage, inbox, Request.activity?]
      · simp [taking?, stage, inbox]
  | @served engine scene ticket request stage =>
      cases answer : answer? engine scene request with
      | none =>
          have remains : worker.thread.outlook =
              ([(ticket, ⟨none, [], writes engine request, []⟩)], none) := by
            simp only [stage, Thread.outlook, answer]
          obtain ⟨before, prospect⟩ := outlook_of_thread remains
          refine conserves_of_retire before (prospect.trans (standingAfter_none _)) rfl rfl
            (List.append_nil _).symm rfl ?_ ?_ ?_
          · simp [announcement?, stage]
          · simp [List.filterMap_map, Function.comp_def, Effect.text?]
          · simp [taking?, stage]
      | some answered =>
          obtain ⟨reply, held⟩ := answered
          have remains : worker.thread.outlook =
              ([(ticket, ⟨some reply, [.idle], writes engine request, []⟩)], some held) := by
            simp only [stage, Thread.outlook, answer]
          obtain ⟨before, prospect⟩ := outlook_of_thread remains
          refine conserves_of_outlook before (List.singleton_append ..).symm prospect.symm
            (List.append_nil _).symm ?_ ?_ ?_ ?_
          · simp
          · simp [announcement?, stage]
          · simp [List.filterMap_map, Function.comp_def, Effect.text?]
          · simp [taking?, stage]
  | @replied engine scene ticket reply stage =>
      obtain ⟨before, prospect⟩ := outlook_of_thread (congrArg Thread.outlook stage)
      refine conserves_of_outlook before (List.nil_append _).symm prospect.symm rfl ?_ ?_ ?_ ?_
      · simp
      · simp [announcement?, stage]
      · simp
      · simp [taking?, stage]

/-- A step moves the state machine to the state that it announces, and not otherwise. -/
theorem step_machine {worker next : Worker ε σ} {now : Nat} {effects : List Effect}
    (stepped : worker.step? now = some (next, effects)) :
    next.machine = worker.announcement?.elim worker.machine fun state =>
      (worker.machine.transition now state).1 := by
  cases stepped_of_step? stepped with
  | started stage | loaded stage | failed stage | crashed stage | replied stage =>
      simp [announcement?, stage, announce, post, retire]
  | taken stage inbox announced => simp [announcement?, stage, inbox, announced, announce]
  | named stage inbox | stunned stage inbox =>
      simp [announcement?, stage, inbox, Request.activity?, post, retire]
  | @served engine scene _ request stage =>
      cases answer? engine scene request <;>
        simp [announcement?, stage, proceed, replying, retire]

theorem step_issued {worker next : Worker ε σ} {now : Nat} {effects : List Effect}
    (stepped : worker.step? now = some (next, effects)) : next.issued = worker.issued := by
  cases stepped_of_step? stepped with
  | @served engine scene _ request => cases answer? engine scene request <;> rfl
  | _ => rfl

/-! ## Requests that come -/

omit [Scene σ] [Evaluator ε σ] in
/-- Nothing is queued for a thread that is not there. -/
def Quiet (worker : Worker ε σ) : Prop :=
  worker.listens = false → worker.inbox = []

theorem Quiet.step {worker next : Worker ε σ} {now : Nat} {effects : List Effect}
    (stepped : worker.step? now = some (next, effects)) : next.Quiet := by
  intro deaf
  cases stepped_of_step? stepped with
  | started | loaded | taken | named | replied => cases deaf
  | failed | crashed | stunned => rfl
  | @served engine scene ticket request stage =>
      cases answer : answer? engine scene request with
      | none => rfl
      | some answered => cases (by simpa [answer] using deaf : _)

omit [Scene σ] [Evaluator ε σ] in
theorem Quiet.send {worker : Worker ε σ} (quiet : worker.Quiet) (request : Request) :
    (worker.send request).2.Quiet := by
  intro deaf
  have deafened : worker.listens = false := deaf
  simp [Worker.send, deafened, quiet deafened]

/-- A thread that has nothing to do owes nothing. -/
theorem Quiet.underway_eq_nil {worker : Worker ε σ} (quiet : worker.Quiet) {now : Nat}
    (idle : worker.step? now = none) : worker.underway = [] := by
  cases listens : worker.listens with
  | true => exact underway_eq_nil_of_idle listens idle
  | false =>
      have gone : worker.thread.ticket? = none := by
        unfold Worker.listens at listens
        split at listens <;> simp_all [Thread.ticket?]
      simp [underway, gone, quiet listens]

/-- A thread that owes nothing has nothing to do. -/
theorem step?_eq_none_of_underway {worker : Worker ε σ} (idle : worker.underway = []) (now : Nat) :
    worker.step? now = none := by
  obtain ⟨free, empty⟩ := underway_eq_nil_iff.1 idle
  cases stage : worker.thread <;> simp_all [step?, Thread.ticket?]

/-- The prospect of a worker without a thread. -/
theorem prospect_of_deaf {worker : Worker ε σ} (deaf : worker.listens = false) :
    worker.prospect = none := by
  have gone : worker.thread.outlook = ([], none) := by
    unfold Worker.listens at deaf
    split at deaf <;> simp_all [Thread.outlook]
  rw [(outlook_of_thread gone).2, standingAfter_none]

/-- What comes of an operation is added at the end of the outlook. -/
structure Adds (worker next : Worker ε σ) (operation : Nat × Operation ε) : Prop where
  replies : told next.outlook = told worker.outlook ++ told (transcript worker.prospect [operation])
  states : statesOf next.outlook =
    statesOf worker.outlook ++ statesOf (transcript worker.prospect [operation])
  writes : writesOf next.outlook =
    writesOf worker.outlook ++ writesOf (transcript worker.prospect [operation])
  served : servedOf next.outlook =
    servedOf worker.outlook ++ servedOf (transcript worker.prospect [operation])
  prospect : next.prospect = standingAfter worker.prospect [operation]

/-- A request that is queued comes last in the outlook. -/
theorem outlook_send {worker : Worker ε σ} (listens : worker.listens = true) (request : Request) :
    (worker.send request).2.outlook =
        worker.outlook ++ transcript worker.prospect [(worker.issued, .request request)] ∧
      (worker.send request).2.prospect =
        standingAfter worker.prospect [(worker.issued, .request request)] := by
  have queue : queued (worker.send request).2.inbox =
      queued worker.inbox ++ [(worker.issued, (.request request : Operation ε))] := by
    simp [Worker.send, listens, queued]
  have same : (worker.send request).2.thread = worker.thread := rfl
  constructor
  · rw [Worker.outlook, queue, same, transcript_append, ← List.append_assoc]
    rfl
  · rw [Worker.prospect, queue, same, standingAfter_append]
    rfl

theorem send_adds (worker : Worker ε σ) (request : Request) :
    worker.Adds (worker.send request).2 (worker.issued, .request request) := by
  cases listens : worker.listens with
  | true =>
      obtain ⟨outlook, prospect⟩ := outlook_send listens request
      constructor
      · rw [outlook, told_append]
      · rw [outlook, statesOf_append]
      · rw [outlook, writesOf_append]
      · rw [outlook, servedOf_append]
      · exact prospect
  | false =>
      have queue : (worker.send request).2.inbox = worker.inbox := by
        simp [Worker.send, listens]
      have same : (worker.send request).2.thread = worker.thread := rfl
      have outlook : (worker.send request).2.outlook = worker.outlook := by
        rw [Worker.outlook, queue, same, Worker.outlook]
      have nothing := prospect_of_deaf listens
      constructor
      · rw [outlook, nothing]
        exact (List.append_nil _).symm
      · rw [outlook, nothing]
        exact (List.append_nil _).symm
      · rw [outlook, nothing]
        exact (List.append_nil _).symm
      · rw [outlook, nothing]
        exact (List.append_nil _).symm
      · have deaf : (worker.send request).2.listens = false := listens
        rw [prospect_of_deaf deaf, nothing]
        rfl

end Worker

end RenderFarm
