import Mathlib.Data.List.Basic
import Mathlib.Data.List.Chain
import Mathlib.Data.List.Nodup
import RenderFarm.Language.Evaluation
import RenderFarm.Proofs.Worker.Responses

/-!
# The life of a worker

A `Lifetime` is a worker handle from its creation on, on a clock: its owner may initialise it once, send
requests, collect replies, change the listener and drop the handle, while the thread takes its steps, the
timer looks at the clock and time passes, one move of any of them at a time.

A worker goes through the states of its load and then, for each request that it takes up, through those
of the request (`courseOf`); it stops short where its thread ends. `Thread.Follows` says for each stage of
the thread how far it has come, and `moves_as_allowed` what this means for its states.
-/

namespace RenderFarm

/-- The states that a worker goes through when it serves a request; none for names. -/
def Request.course (request : Request) : List Worker.State :=
  match request.activity? with
  | some state => [state, .idle]
  | none => []

/-- A worker handle on a clock, with what has become of it since it was created. -/
structure Lifetime (ε σ : Type) where
  worker : Worker ε σ
  now : Nat
  /-- Whether the handle is gone. Only replies can be collected then. -/
  dropped : Bool
  /-- The requests sent, with their tickets. -/
  sent : List (Nat × Request)
  /-- The requests that the thread has taken up, in order. -/
  served : List (Nat × Request)
  /-- The replies collected. -/
  received : List (Nat × Reply)
  /-- The states that the worker has moved to, with the times. -/
  moved : List (Nat × Worker.State)
  /-- What was reported of its states, with the times. -/
  reports : List (Nat × StateReport)

namespace Lifetime

inductive Move (ε : Type) where
  | init (load : Load ε)
  | send (request : Request)
  | collect (ticket : Nat)
  | subscribe (listener : String)
  | unsubscribe
  | drop
  /-- The thread takes its next step, if there is one. -/
  | work
  /-- The timer looks at the clock. -/
  | elapse
  | wait (milliseconds : Nat)

variable {ε σ : Type}

def create (id window : Nat) : Lifetime ε σ :=
  ⟨.create id window, 0, false, [], [], [], [], []⟩

/-- The states that the worker has moved to. -/
def states (life : Lifetime ε σ) : List Worker.State :=
  life.moved.map Prod.snd

/-- The tickets of the replies that are there or were collected. -/
def replied (life : Lifetime ε σ) : List Nat :=
  (life.received ++ life.worker.outbox).map Prod.fst

def init (life : Lifetime ε σ) (load : Load ε) : Lifetime ε σ :=
  if life.dropped || life.worker.isRunning then life
  else { life with worker := (life.worker.start load).2 }

def send (life : Lifetime ε σ) (request : Request) : Lifetime ε σ :=
  if life.dropped then life
  else
    { life with
      worker := (life.worker.send request).2
      sent := life.sent ++ [(life.worker.issued, request)] }

def collect (life : Lifetime ε σ) (ticket : Nat) : Lifetime ε σ :=
  match life.worker.collect? ticket with
  | some (reply, next) =>
    { life with worker := next, received := life.received ++ [(ticket, reply)] }
  | none => life

def elapse (life : Lifetime ε σ) : Lifetime ε σ :=
  let (machine, report) := life.worker.machine.elapse life.now
  { life with
    worker := { life.worker with machine := machine }
    reports := life.reports ++ report.toList.map (Prod.mk life.now) }

/-- The request that the next step of the thread takes up, with its ticket. -/
def taking? (worker : Worker ε σ) : Option (Nat × Request) :=
  match worker.thread with
  | .ready .. => worker.inbox.head?
  | _ => none

/-- The report that an effect is, if it is one. -/
def report? : Effect → Option StateReport
  | .reported report => some report
  | .wrote _ => none

variable [Scene σ] [Evaluator ε σ]

def work (life : Lifetime ε σ) : Lifetime ε σ :=
  match life.worker.step? life.now with
  | none => life
  | some (next, effects) =>
    { life with
      worker := next
      served := life.served ++ (taking? life.worker).toList
      moved := life.moved ++ life.worker.announcement?.toList.map (Prod.mk life.now)
      reports := life.reports ++ (effects.filterMap report?).map (Prod.mk life.now) }

def step (life : Lifetime ε σ) : Move ε → Lifetime ε σ
  | .init load => life.init load
  | .send request => life.send request
  | .collect ticket => life.collect ticket
  | .subscribe listener =>
    if life.dropped then life else { life with worker := life.worker.subscribe listener }
  | .unsubscribe => if life.dropped then life else { life with worker := life.worker.unsubscribe }
  | .drop => { life with dropped := true }
  | .work => life.work
  | .elapse => life.elapse
  | .wait milliseconds => { life with now := life.now + milliseconds }

/-- Makes moves one after the other. -/
def play (life : Lifetime ε σ) (moves : List (Move ε)) : Lifetime ε σ :=
  moves.foldl step life

/-! ## The course of a life -/

/-- The states of a worker that has been loaded and has served these requests. -/
def courseOf (served : List (Nat × Request)) : List Worker.State :=
  [.loading, .loaded] ++ served.flatMap fun entry => entry.2.course

omit [Scene σ] [Evaluator ε σ]

theorem courseOf_concat (served : List (Nat × Request)) (entry : Nat × Request) :
    courseOf (served ++ [entry]) = courseOf served ++ entry.2.course := by
  simp [courseOf]

theorem courseOf_concat_names (served : List (Nat × Request)) (ticket : Nat) :
    courseOf (served ++ [(ticket, .names)]) = courseOf served := by
  simp [courseOf_concat, Request.course, Request.activity?]

/-- After its load a worker goes back and forth between serving and idling. -/
theorem isChain_courses (served : List (Nat × Request)) {state : Worker.State}
    (rests : state = .loaded ∨ state = .idle) :
    List.IsChain (fun before after => before.allows after = true)
      (state :: served.flatMap fun entry => entry.2.course) := by
  induction served generalizing state with
  | nil => exact .singleton _
  | cons entry rest ih =>
      obtain ⟨ticket, request⟩ := entry
      cases request with
      | names => exact ih rests
      | evaluate | compute =>
          refine .cons_cons ?_ (.cons_cons rfl (ih (.inr rfl)))
          rcases rests with rfl | rfl <;> rfl

theorem isChain_courseOf (served : List (Nat × Request)) :
    List.IsChain (fun before after => before.allows after = true) (.created :: courseOf served) :=
  .cons_cons rfl (.cons_cons rfl (isChain_courses served (.inl rfl)))

/-- The request taken up last is being served, or the thread has ended over it: its first state is the
last so far, and it has no reply. -/
def Busy (served : List (Nat × Request)) (states : List Worker.State) (replied : List Nat)
    (entry : Nat × Request) : Prop :=
  ∃ earlier state, served = earlier ++ [entry] ∧ entry.2.activity? = some state ∧
    states = courseOf earlier ++ [state] ∧ entry.1 ∉ replied

end Lifetime

/-- How far a worker has come when its thread stands at some stage. -/
def Thread.Follows {ε σ : Type} (served : List (Nat × Request)) (states : List Worker.State)
    (replied : List Nat) : Thread ε σ → Prop
  | .absent | .starting .. => served = [] ∧ states = []
  | .loading .. => served = [] ∧ states = [.loading]
  | .ready .. => states = Lifetime.courseOf served
  | .serving _ _ ticket request => Lifetime.Busy served states replied (ticket, request)
  | .replying _ _ ticket _ => ∃ request, Lifetime.Busy served states replied (ticket, request)
  | .ended => served = [] ∧ states = [.loading] ∨ states = Lifetime.courseOf served ∨
    ∃ entry, Lifetime.Busy served states replied entry

namespace Lifetime

variable {ε σ : Type}

theorem Busy.mono {served : List (Nat × Request)} {states : List Worker.State}
    {replied fewer : List Nat} {entry : Nat × Request} (busy : Busy served states replied entry)
    (subset : fewer ⊆ replied) : Busy served states fewer entry := by
  obtain ⟨earlier, state, last, activity, course, unreplied⟩ := busy
  exact ⟨earlier, state, last, activity, course, fun member => unreplied (subset member)⟩

theorem follows_mono {served : List (Nat × Request)} {states : List Worker.State}
    {replied fewer : List Nat} {thread : Thread ε σ} (follows : thread.Follows served states replied)
    (subset : fewer ⊆ replied) : thread.Follows served states fewer := by
  cases thread with
  | absent | starting | loading | ready => exact follows
  | serving => exact Busy.mono follows subset
  | replying => exact follows.imp fun _ busy => busy.mono subset
  | ended => exact follows.imp_right (.imp_right (.imp fun _ busy => busy.mono subset))

/-- What is known of a worker at any moment of its life. -/
structure Regular (life : Lifetime ε σ) : Prop where
  current : life.worker.state = life.states.getLastD .created
  follows : life.worker.thread.Follows life.served life.states life.replied
  /-- Requests are taken up in the order in which they were sent. -/
  inOrder : (life.served ++ life.worker.inbox).Sublist life.sent
  sorted : (life.sent.map Prod.fst).Pairwise (· < ·)
  issued : ∀ entry ∈ life.sent, entry.1 < life.worker.issued
  /-- A request is taken up before its reply is there. The load has a ticket too. -/
  known : ∀ ticket, ticket ∈ life.replied ∨ life.worker.thread.ticket? = some ticket →
    ticket < life.worker.issued ∧
      (ticket ∈ life.sent.map Prod.fst → ticket ∈ life.served.map Prod.fst)

theorem create_regular (id window : Nat) : (create id window : Lifetime ε σ).Regular where
  current := rfl
  follows := ⟨rfl, rfl⟩
  inOrder := .slnil
  sorted := .nil
  issued := nofun
  known := fun ticket => by simp [create, replied, Worker.create, Thread.ticket?]

namespace Regular

variable {life : Lifetime ε σ} (regular : life.Regular)
include regular

/-- Requests that are queued were sent after those that have been taken up. -/
theorem fresh {ticket : Nat} {request : Request} {rest : List (Nat × Request)}
    (inbox : life.worker.inbox = (ticket, request) :: rest) : ticket ∉ life.replied := by
  intro member
  have order := regular.sorted.sublist (regular.inOrder.map Prod.fst)
  have there : ticket ∈ life.sent.map Prod.fst :=
    (regular.inOrder.map Prod.fst).subset (by simp [inbox])
  have taken := (regular.known ticket (.inl member)).2 there
  rw [List.map_append, List.pairwise_append] at order
  exact Nat.lt_irrefl _ (order.2.2 ticket taken ticket (by simp [inbox]))

theorem init (load : Load ε) : (life.init load).Regular := by
  unfold Lifetime.init
  split
  · exact regular
  · next first =>
    rw [Bool.or_eq_true, not_or] at first
    have absent : life.worker.thread = .absent := by
      have asleep := first.2
      unfold Worker.isRunning at asleep
      split at asleep <;> simp_all
    have follows := regular.follows
    rw [absent] at follows
    obtain ⟨unserved, unmoved⟩ := follows
    refine ⟨regular.current, ⟨unserved, unmoved⟩, ?_, regular.sorted,
      fun entry member => Nat.lt_succ_of_lt (regular.issued entry member), fun ticket known => ?_⟩
    · exact ((List.Sublist.refl _).append (List.nil_sublist _)).trans regular.inOrder
    · rcases known with member | own
      · obtain ⟨below, taken⟩ := regular.known ticket (.inl member)
        exact ⟨Nat.lt_succ_of_lt below, taken⟩
      · obtain rfl : life.worker.issued = ticket := Option.some.inj own
        refine ⟨Nat.lt_succ_self _, fun member => ?_⟩
        obtain ⟨entry, there, same⟩ := List.mem_map.1 member
        exact absurd same (Nat.ne_of_lt (regular.issued entry there))

theorem send (request : Request) : (life.send request).Regular := by
  unfold Lifetime.send
  split
  · exact regular
  · refine ⟨regular.current, regular.follows, ?_, ?_, fun entry member => ?_, fun ticket known => ?_⟩
    · simp only [Worker.send]
      split
      · rw [← List.append_assoc]
        exact regular.inOrder.append (.refl _)
      · exact regular.inOrder.trans (List.sublist_append_left _ _)
    · rw [List.map_append, List.pairwise_append]
      refine ⟨regular.sorted, List.pairwise_singleton _ _, fun ticket member other last => ?_⟩
      obtain ⟨entry, there, rfl⟩ := List.mem_map.1 member
      rw [List.mem_singleton.1 last]
      exact regular.issued entry there
    · rcases List.mem_append.1 member with before | last
      · exact Nat.lt_succ_of_lt (regular.issued entry before)
      · rw [List.mem_singleton.1 last]
        exact Nat.lt_succ_self _
    · obtain ⟨below, taken⟩ := regular.known ticket known
      refine ⟨Nat.lt_succ_of_lt below, fun member => ?_⟩
      rw [List.map_append, List.mem_append] at member
      refine taken (member.resolve_right fun last => ?_)
      exact absurd (List.mem_singleton.1 last) (Nat.ne_of_lt below)

theorem collect (ticket : Nat) : (life.collect ticket).Regular := by
  unfold Lifetime.collect
  split
  · next reply next found =>
    obtain ⟨there, rfl⟩ := Worker.mem_outbox_of_collect? found
    have fewer : replied { life with
        worker := { life.worker with
          outbox := life.worker.outbox.filter fun entry => entry.1 != ticket }
        received := life.received ++ [(ticket, reply)] } ⊆ life.replied := by
      intro other member
      simp only [replied, List.append_assoc, List.map_append, List.mem_append, List.mem_map] at member ⊢
      rcases member with before | ⟨entry, last, rfl⟩ | ⟨entry, kept, rfl⟩
      · exact .inl before
      · exact .inr ⟨(ticket, reply), there, by rw [List.mem_singleton.1 last]⟩
      · exact .inr ⟨entry, (List.mem_filter.1 kept).1, rfl⟩
    exact ⟨regular.current, follows_mono regular.follows fewer, regular.inOrder, regular.sorted,
      regular.issued, fun other known => regular.known other (known.imp_left (@fewer other))⟩
  · exact regular

end Regular

/-! ## The steps of the thread -/

section Steps

variable [Scene σ] [Evaluator ε σ] {worker next : Worker ε σ} {now : Nat} {effects : List Effect}

/-- A step takes up the oldest request or none, and loses requests only when the thread ends. -/
theorem sublist_inbox (stepped : worker.step? now = some (next, effects)) :
    ((taking? worker).toList ++ next.inbox).Sublist worker.inbox := by
  cases Worker.stepped_of_step? stepped with
  | started stage | loaded stage | replied stage =>
      simp only [taking?, stage]
      exact .refl _
  | failed stage | crashed stage =>
      simp only [taking?, stage]
      exact List.nil_sublist _
  | taken stage inbox | named stage inbox =>
      simp only [taking?, stage, inbox]
      exact .refl _
  | stunned stage inbox =>
      simp only [taking?, stage, inbox]
      exact (List.nil_sublist _).cons_cons _
  | @served engine scene _ request stage =>
      simp only [taking?, stage]
      cases Worker.answer? engine scene request with
      | none => exact List.nil_sublist _
      | some answered => exact .refl _

/-- The tickets in the hands of the thread and of its replies come from there or from the queue. -/
theorem ticket_of_step (stepped : worker.step? now = some (next, effects)) {ticket : Nat}
    (there : ticket ∈ next.outbox.map Prod.fst ∨ next.thread.ticket? = some ticket) :
    (ticket ∈ worker.outbox.map Prod.fst ∨ worker.thread.ticket? = some ticket) ∨
      ticket ∈ (taking? worker).toList.map Prod.fst := by
  cases Worker.stepped_of_step? stepped with
  | started stage => exact .inl (by simpa [Worker.announce, Thread.ticket?, stage] using there)
  | crashed | stunned =>
      rcases there with sent | held
      · exact .inl (.inl sent)
      · cases held
  | loaded stage | failed stage | replied stage =>
      rcases there with sent | held
      · simp only [Worker.post, List.map_append, List.mem_append] at sent
        refine .inl (sent.imp id fun last => ?_)
        rw [List.mem_singleton.1 last, stage]
        rfl
      · cases held
  | taken stage inbox =>
      refine there.imp .inl fun held => ?_
      simpa [taking?, stage, inbox, Worker.announce, Thread.ticket?, eq_comm] using held
  | named stage inbox =>
      rcases there with sent | held
      · simp only [Worker.post, List.map_append, List.mem_append] at sent
        refine sent.imp .inl fun last => ?_
        simpa [taking?, stage, inbox] using last
      · cases held
  | @served engine scene _ request stage =>
      rw [stage]
      cases answer : Worker.answer? engine scene request with
      | none => exact .inl (.inl (by simpa [answer, Worker.proceed, Worker.replying, Worker.retire,
          Thread.ticket?] using there))
      | some answered => exact .inl (by simpa [answer, Worker.proceed, Worker.replying,
          Thread.ticket?] using there)

/-- A step goes one state further along the course, or the thread ends where it is. -/
theorem follows_step {served : List (Nat × Request)} {states : List Worker.State}
    {received : List (Nat × Reply)}
    (follows : worker.thread.Follows served states ((received ++ worker.outbox).map Prod.fst))
    (fresh : ∀ entry ∈ worker.inbox.head?, entry.1 ∉ (received ++ worker.outbox).map Prod.fst)
    (stepped : worker.step? now = some (next, effects)) :
    next.thread.Follows (served ++ (taking? worker).toList)
      (states ++ worker.announcement?.toList) ((received ++ next.outbox).map Prod.fst) := by
  cases Worker.stepped_of_step? stepped with
  | started stage =>
      rw [stage] at follows
      obtain ⟨rfl, rfl⟩ := follows
      simp [taking?, Worker.announcement?, stage, Worker.announce, Thread.Follows]
  | loaded stage =>
      rw [stage] at follows
      obtain ⟨rfl, rfl⟩ := follows
      simp [taking?, Worker.announcement?, stage, Worker.announce, Worker.post, Thread.Follows,
        courseOf]
  | failed stage | crashed stage =>
      rw [stage] at follows
      simpa [taking?, Worker.announcement?, stage, Worker.retire, Worker.post, Thread.Follows] using
        Or.inl follows
  | @taken engine scene ticket request rest state stage inbox announced =>
      rw [stage] at follows
      have unreplied := fresh (ticket, request) (by simp [inbox])
      simp only [taking?, Worker.announcement?, stage, inbox, List.head?_cons, Option.bind_some,
        announced]
      exact ⟨served, state, rfl, announced, congrArg (· ++ [state]) follows, unreplied⟩
  | named stage inbox =>
      rw [stage] at follows
      simp only [taking?, Worker.announcement?, stage, inbox, List.head?_cons, Option.bind_some]
      exact (List.append_nil _).trans (follows.trans (courseOf_concat_names _ _).symm)
  | stunned stage inbox =>
      rw [stage] at follows
      simp only [taking?, Worker.announcement?, stage, inbox, List.head?_cons, Option.bind_some]
      exact .inr (.inl ((List.append_nil _).trans (follows.trans (courseOf_concat_names _ _).symm)))
  | @served engine scene ticket request stage =>
      rw [stage] at follows
      simp only [taking?, Worker.announcement?, stage, Option.toList_none, List.append_nil]
      cases Worker.answer? engine scene request with
      | none => exact .inr (.inr ⟨_, follows⟩)
      | some answered => exact ⟨request, follows⟩
  | @replied engine scene ticket reply stage =>
      rw [stage] at follows
      obtain ⟨request, earlier, state, rfl, activity, rfl, -⟩ := follows
      simp [taking?, Worker.announcement?, stage, Worker.announce, Worker.post, Thread.Follows,
        courseOf_concat, Request.course, activity]

end Steps

namespace Regular

variable [Scene σ] [Evaluator ε σ] {life : Lifetime ε σ} (regular : life.Regular)
include regular

theorem work : life.work.Regular := by
  unfold Lifetime.work
  split
  · exact regular
  · next next effects stepped =>
    have order : (life.served ++ (taking? life.worker).toList ++ next.inbox).Sublist life.sent := by
      rw [List.append_assoc]
      exact ((List.Sublist.refl _).append (sublist_inbox stepped)).trans regular.inOrder
    have taken : ∀ entry ∈ (taking? life.worker).toList, entry ∈ life.sent := fun entry member =>
      order.subset (by simp [member])
    have states : (life.moved ++ life.worker.announcement?.toList.map (Prod.mk life.now)).map
        Prod.snd = life.states ++ life.worker.announcement?.toList := by
      simp [Lifetime.states, Function.comp_def]
    refine ⟨?_, ?_, order, regular.sorted, ?_, fun ticket there => ?_⟩
    · simp only [Lifetime.states, states]
      rw [Worker.state, Worker.step_machine stepped]
      cases life.worker.announcement? with
      | none => exact regular.current.trans (congrArg (List.getLastD · _) (List.append_nil _).symm)
      | some state => simp [StateMachine.transition]
    · simp only [Lifetime.states, states]
      refine follows_step regular.follows (fun entry first => ?_) stepped
      obtain ⟨rest, inbox⟩ := List.head?_eq_some_iff.1 first
      exact regular.fresh inbox
    · rw [Worker.step_issued stepped]
      exact regular.issued
    · have before : (ticket ∈ life.replied ∨ life.worker.thread.ticket? = some ticket) ∨
          ticket ∈ (taking? life.worker).toList.map Prod.fst := by
        simp only [replied, List.map_append, List.mem_append] at there ⊢
        rcases there with (received | sent) | held
        · exact .inl (.inl (.inl received))
        · exact (ticket_of_step stepped (.inl sent)).imp_left (.imp_left .inr)
        · exact (ticket_of_step stepped (.inr held)).imp_left (.imp_left .inr)
      rw [Worker.step_issued stepped, List.map_append, List.mem_append]
      rcases before with known | first
      · exact (regular.known ticket known).imp_right (.inl ∘ ·)
      · obtain ⟨entry, member, rfl⟩ := List.mem_map.1 first
        exact ⟨regular.issued entry (taken entry member), fun _ => .inr first⟩

theorem step (move : Move ε) : (life.step move).Regular := by
  cases move with
  | init load => exact regular.init load
  | send request => exact regular.send request
  | collect ticket => exact regular.collect ticket
  | subscribe | unsubscribe =>
      simp only [Lifetime.step]
      split
      · exact regular
      · exact { regular with }
  | drop | wait | elapse => exact { regular with }
  | work => exact regular.work

theorem play (moves : List (Move ε)) : (life.play moves).Regular := by
  induction moves generalizing life with
  | nil => exact regular
  | cons move rest ih => exact ih (regular.step move)

end Regular

/-! ## Threads that end -/

end Lifetime

/-- Whether the thread has ended, or its next step ends it and announces nothing. -/
def Thread.Doomed {ε σ : Type} [Scene σ] [Evaluator ε σ] : Thread ε σ → Prop
  | .loading load _ => ∀ engine, load ≠ .engine engine
  | .serving engine scene _ request => Worker.answer? engine scene request = none
  | .ended => True
  | .absent | .starting .. | .ready .. | .replying .. => False

namespace Lifetime

variable {ε σ : Type} [Scene σ] [Evaluator ε σ]

theorem step_doomed {worker next : Worker ε σ} (doomed : worker.thread.Doomed) {now : Nat}
    {effects : List Effect} (stepped : worker.step? now = some (next, effects)) :
    next.thread = .ended ∧ next.machine = worker.machine := by
  cases Worker.stepped_of_step? stepped with
  | started stage | taken stage | named stage | stunned stage | replied stage =>
      simp [stage, Thread.Doomed] at doomed
  | @loaded engine _ stage =>
      rw [stage] at doomed
      exact absurd rfl (doomed engine)
  | failed stage | crashed stage => exact ⟨rfl, rfl⟩
  | @served engine scene _ request stage =>
      rw [stage] at doomed
      have panics : Worker.answer? engine scene request = none := doomed
      rw [panics]
      exact ⟨rfl, rfl⟩

/-- A thread that is about to end leaves the worker in the state in which it is. -/
theorem state_of_doomed (life : Lifetime ε σ) (doomed : life.worker.thread.Doomed)
    (moves : List (Move ε)) : (life.play moves).worker.state = life.worker.state := by
  induction moves generalizing life with
  | nil => rfl
  | cons move rest ih =>
      have kept : (life.step move).worker.thread.Doomed ∧
          (life.step move).worker.state = life.worker.state := by
        cases move with
        | init load =>
            have running : life.worker.isRunning = true := by
              unfold Worker.isRunning
              split
              · next absent => simp [absent, Thread.Doomed] at doomed
              · rfl
            simpa [step, init, running] using doomed
        | send | subscribe | unsubscribe =>
            simp only [step, send]
            split <;> exact ⟨doomed, rfl⟩
        | collect ticket =>
            simp only [step, collect]
            split
            · next found =>
              obtain ⟨-, rfl⟩ := Worker.mem_outbox_of_collect? found
              exact ⟨doomed, rfl⟩
            · exact ⟨doomed, rfl⟩
        | drop | elapse | wait => exact ⟨doomed, rfl⟩
        | work =>
            simp only [step, work]
            split
            · exact ⟨doomed, rfl⟩
            · next stepped =>
              obtain ⟨ended, machine⟩ := step_doomed doomed stepped
              exact ⟨by rw [ended]; trivial, congrArg StateMachine.current machine⟩
      exact (ih _ kept.1).trans kept.2

/-! ## The states of a life -/

section Courses

omit [Scene σ] [Evaluator ε σ]

/-- A worker has gone through the course of what it has taken up, or the last of it is not over. -/
theorem course_of_follows {served : List (Nat × Request)} {states : List Worker.State}
    {replied : List Nat} {thread : Thread ε σ} (follows : thread.Follows served states replied) :
    served = [] ∧ states <+: [.loading] ∨ states = courseOf served ∨
      ∃ entry, Busy served states replied entry := by
  cases thread with
  | absent | starting => exact .inl ⟨follows.1, follows.2 ▸ List.nil_prefix⟩
  | loading => exact .inl ⟨follows.1, follows.2 ▸ List.prefix_refl _⟩
  | ready => exact .inr (.inl follows)
  | serving => exact .inr (.inr ⟨_, follows⟩)
  | replying => exact .inr (.inr ⟨_, follows.choose_spec⟩)
  | ended => exact follows.imp_left fun ⟨unserved, moved⟩ => ⟨unserved, moved ▸ List.prefix_refl _⟩

theorem Busy.states_concat_idle {served : List (Nat × Request)} {states : List Worker.State}
    {replied : List Nat} {entry : Nat × Request} (busy : Busy served states replied entry) :
    states ++ [.idle] = courseOf served := by
  obtain ⟨earlier, state, rfl, activity, rfl, -⟩ := busy
  simp [courseOf_concat, Request.course, activity]

namespace Regular

variable {life : Lifetime ε σ} (regular : life.Regular)
include regular

theorem course : life.served = [] ∧ life.states <+: [.loading] ∨
    life.states = courseOf life.served ∨ life.states ++ [.idle] = courseOf life.served :=
  (course_of_follows regular.follows).imp_right
    (.imp_right fun ⟨_, busy⟩ => busy.states_concat_idle)

theorem states_prefix : life.states <+: courseOf life.served := by
  rcases regular.course with ⟨unserved, started⟩ | whole | busy
  · exact started.trans (by simp [unserved, courseOf])
  · exact whole ▸ List.prefix_refl _
  · exact ⟨_, busy⟩

theorem served_sublist : life.served.Sublist life.sent :=
  (List.sublist_append_left _ _).trans regular.inOrder

/-- A request whose reply is there was taken up. -/
theorem mem_served {ticket : Nat} {request : Request} (asked : (ticket, request) ∈ life.sent)
    (there : ticket ∈ life.replied) : (ticket, request) ∈ life.served := by
  have taken := (regular.known ticket (.inl there)).2 (List.mem_map_of_mem asked)
  obtain ⟨entry, member, same⟩ := List.mem_map.1 taken
  have nodup : (life.sent.map Prod.fst).Nodup := regular.sorted.imp Nat.ne_of_lt
  rwa [← List.inj_on_of_nodup_map nodup (regular.served_sublist.subset member) asked same]

/-- Of the requests taken up, one than which none is later is the last. -/
theorem served_concat {ticket : Nat} {request : Request} (member : (ticket, request) ∈ life.served)
    (latest : ∀ entry ∈ life.served, entry.1 ≤ ticket) :
    ∃ earlier, life.served = earlier ++ [(ticket, request)] := by
  obtain ⟨earlier, last, split⟩ :=
    (List.eq_nil_or_concat' life.served).resolve_left (List.ne_nil_of_mem member)
  rw [split, List.mem_append, List.mem_singleton] at member
  rcases member with before | rfl
  · have sorted := regular.sorted.sublist (regular.served_sublist.map Prod.fst)
    rw [split, List.map_append, List.pairwise_append] at sorted
    have later := sorted.2.2 ticket (List.mem_map_of_mem before) last.1 (by simp)
    exact absurd (latest last (by simp [split])) (Nat.not_le_of_lt later)
  · exact ⟨earlier, split⟩

theorem idle_of_replied {ticket : Nat} {request : Request} (asked : (ticket, request) ∈ life.sent)
    (announced : request ≠ .names) (there : ticket ∈ life.replied)
    (latest : ∀ entry ∈ life.served, entry.1 ≤ ticket) : life.worker.state = .idle := by
  obtain ⟨earlier, served⟩ := regular.served_concat (regular.mem_served asked there) latest
  have course : life.states = courseOf life.served := by
    rcases course_of_follows regular.follows with ⟨none, -⟩ | course | ⟨entry, busy⟩
    · simp [none] at served
    · exact course
    · obtain ⟨before, _, last, -, -, unreplied⟩ := busy
      rw [served] at last
      obtain rfl := List.head_eq_of_cons_eq (List.append_inj' last rfl).2
      exact absurd there unreplied
  rw [regular.current, course, served, courseOf_concat]
  cases request with
  | names => exact absurd rfl announced
  | evaluate | compute => simp [Request.course, Request.activity?]

end Regular

end Courses

/-- Whatever load a worker is given and whatever is asked of it at whatever times, each of its moves is
one of those that belong to its life: it goes through the states of its load and then through those of
the requests that it takes up. Once the reply to an evaluation or a computation is there and no later
request has been taken up, it is idle. It stays loading when no engine comes of its load, and when the
engine panics it stays in the state in which it served the request. -/
theorem moves_as_allowed (id window : Nat) (moves : List (Move ε)) :
    let life := (create id window : Lifetime ε σ).play moves
    life.worker.state = life.states.getLastD .created ∧
      List.IsChain (fun before after => before.allows after = true) (.created :: life.states) ∧
      (life.served = [] ∧ life.states <+: [.loading] ∨ life.states = courseOf life.served ∨
        life.states ++ [.idle] = courseOf life.served) ∧
      (∀ ticket request, (ticket, request) ∈ life.sent → request ≠ .names → ticket ∈ life.replied →
        (∀ entry ∈ life.served, entry.1 ≤ ticket) → life.worker.state = .idle) ∧
      (∀ load ticket, life.worker.thread = .loading load ticket → (∀ engine, load ≠ .engine engine) →
        ∀ more, (life.play more).worker.state = .loading) ∧
      ∀ engine scene ticket request, life.worker.thread = .serving engine scene ticket request →
        Worker.answer? engine scene request = none →
        ∀ more, request.activity? = some (life.play more).worker.state := by
  intro life
  have regular : life.Regular := (create_regular id window).play moves
  refine ⟨regular.current, ?_, regular.course, ?_, ?_, ?_⟩
  · obtain ⟨further, same⟩ := regular.states_prefix
    have whole := isChain_courseOf life.served
    rw [← same, ← List.cons_append] at whole
    exact whole.left_of_append
  · exact fun ticket request => regular.idle_of_replied
  · intro load ticket stage unloaded more
    have doomed : life.worker.thread.Doomed := by rw [stage]; exact unloaded
    have follows := regular.follows
    rw [stage] at follows
    rw [state_of_doomed life doomed more, regular.current, follows.2]
    rfl
  · intro engine scene ticket request stage panics more
    have doomed : life.worker.thread.Doomed := by rw [stage]; exact panics
    have follows := regular.follows
    rw [stage] at follows
    obtain ⟨earlier, state, -, activity, states, -⟩ := follows
    rw [state_of_doomed life doomed more, regular.current, states, activity]
    simp

/-- A worker is idle when the outcome of its only evaluation is collected. -/
theorem collected_outcome_finds_idle :
    let life := (create 0 10 : Lifetime Language.Bindings Language.Picture).play
      [.init (.engine .empty), .work, .work, .send (.evaluate "x = 1"), .work, .work, .work, .collect 1]
    life.received = [(1, .outcome (.success "1" none))] ∧
      life.states = [.loading, .loaded, .evaluating, .idle] ∧ life.worker.state = .idle := by
  intro life
  obtain ⟨-, -, -, idles, -, -⟩ := moves_as_allowed 0 10 [.init (.engine (.empty : Language.Bindings)),
    .work, .work, .send (.evaluate "x = 1"), .work, .work, .work, .collect 1]
  refine ⟨by decide +kernel, by decide +kernel, ?_⟩
  exact idles 1 (.evaluate "x = 1") (by decide +kernel) nofun (by decide +kernel) (by decide +kernel)

end Lifetime

end RenderFarm
