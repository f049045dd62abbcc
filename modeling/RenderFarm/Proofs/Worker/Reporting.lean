import RenderFarm.Proofs.Debouncer.Deadlines
import RenderFarm.Proofs.Worker.Lifetime

/-!
# What is reported of a worker

A worker spends a period of time in each of its states. All but the idle ones are reported when they
begin; an idle one is reported when the window has passed, if it lasts that long (`Period.report?`).
`StateMachine.Tells` ties the reports of a worker to its periods, whether or not idleness waits to be
reported, and `reported_as_debounced` says it of every run with a listener there from the start and a
timer that acts on time.
-/

namespace RenderFarm

/-- A time that a worker spends in one state. -/
structure Period where
  since : Nat
  till : Nat
  state : Worker.State

/-- What is reported of a period, and when. -/
def Period.report? (listener : String) (window : Nat) (period : Period) : Option (Nat × StateReport) :=
  if period.state.isIdle then
    if period.since + window ≤ period.till then
      some (period.since + window, ⟨listener, period.state⟩)
    else none
  else some (period.since, ⟨listener, period.state⟩)

theorem Period.report?_active (listener : String) (window : Nat) {period : Period}
    (active : period.state.isIdle = false) :
    period.report? listener window = some (period.since, ⟨listener, period.state⟩) := by
  simp [report?, active]

/-- A worker that idled too briefly is not reported idle. -/
theorem Period.report?_brief (listener : String) {window since till : Nat}
    (brief : till < since + window) : report? listener window ⟨since, till, .idle⟩ = none := by
  simp [report?, Worker.State.isIdle, Nat.not_le_of_lt brief]

theorem Period.report?_long (listener : String) {window since till : Nat}
    (long : since + window ≤ till) :
    report? listener window ⟨since, till, .idle⟩ = some (since + window, ⟨listener, .idle⟩) := by
  simp [report?, Worker.State.isIdle, long]

theorem Period.report?_eq_some {listener : String} {window : Nat} {period : Period}
    {entry : Nat × StateReport} (reported : period.report? listener window = some entry) :
    entry.2 = ⟨listener, period.state⟩ := by
  unfold report? at reported
  split at reported
  · split at reported <;> cases reported
    rfl
  · cases reported
    rfl

theorem Period.report?_eq_none {listener : String} {window : Nat} {period : Period}
    (unreported : period.report? listener window = none) : period.state = .idle := by
  unfold report? at unreported
  split at unreported
  · next idles => cases same : period.state <;> simp_all [Worker.State.isIdle]
  · cases unreported

/-- The periods of a worker that has moved to states at some times; the last of them goes on. -/
def periods (now : Nat) : List (Nat × Worker.State) → List Period
  | [] => []
  | [(since, state)] => [⟨since, now, state⟩]
  | (since, state) :: (till, next) :: rest =>
    ⟨since, till, state⟩ :: periods now ((till, next) :: rest)

/-- What is reported by a time of a worker that has moved to states. -/
def reportsOf (listener : String) (window now : Nat) (moved : List (Nat × Worker.State)) :
    List (Nat × StateReport) :=
  (periods now moved).filterMap (Period.report? listener window)

section Periods

variable (listener : String) (window now since : Nat) (state : Worker.State)
  (moved : List (Nat × Worker.State))

/-- A move ends the period before. -/
theorem periods_concat :
    periods now (moved ++ [(since, state)]) = periods since moved ++ [⟨since, now, state⟩] := by
  induction moved with
  | nil => rfl
  | cons first rest ih =>
      cases rest with
      | nil => rfl
      | cons second rest => exact congrArg _ ih

theorem map_state_periods : (periods now moved).map Period.state = moved.map Prod.snd := by
  induction moved with
  | nil => rfl
  | cons first rest ih =>
      cases rest with
      | nil => rfl
      | cons second rest => exact congrArg _ ih

theorem reportsOf_concat :
    reportsOf listener window now (moved ++ [(since, state)]) =
      reportsOf listener window since moved ++
        (Period.report? listener window ⟨since, now, state⟩).toList := by
  rw [reportsOf, periods_concat, List.filterMap_append]
  cases same : Period.report? listener window ⟨since, now, state⟩ <;> simp [reportsOf, same]

theorem listener_of_mem_reportsOf {entry : Nat × StateReport}
    (member : entry ∈ reportsOf listener window now moved) : entry.2.listener = listener := by
  obtain ⟨period, -, reported⟩ := List.mem_filterMap.1 member
  rw [Period.report?_eq_some reported]

/-- The states reported, without those of idleness. -/
def activesOf (reports : List (Nat × StateReport)) : List Worker.State :=
  (reports.map fun entry => entry.2.value).filter fun state => !state.isIdle

/-- All but idleness is reported. -/
theorem activesOf_reportsOf : activesOf (reportsOf listener window now moved) =
    (moved.map Prod.snd).filter fun state => !state.isIdle := by
  rw [← map_state_periods now moved, reportsOf]
  induction periods now moved with
  | nil => rfl
  | cons period rest ih =>
      cases reported : period.report? listener window with
      | none =>
          have idles := Period.report?_eq_none reported
          simpa [activesOf, reported, idles, Worker.State.isIdle] using ih
      | some entry =>
          have same := Period.report?_eq_some reported
          simp only [activesOf, List.filterMap_cons, reported, List.map_cons, List.filter_cons, same]
          split
          · exact congrArg _ ih
          · exact ih

/-- Whether a worker in this state serves a request. -/
def Worker.State.Serves (state : Worker.State) : Prop :=
  state = .evaluating ∨ ∃ row, state = .computing row

/-- Whether the second of two states follows upon a request if it is idleness. -/
def Worker.State.Precedes (before after : Worker.State) : Prop :=
  after = .idle → before.Serves

theorem isChain_reports (stays : List Period) {first : Worker.State}
    (chain : List.IsChain Worker.State.Precedes (first :: stays.map Period.state)) :
    List.IsChain Worker.State.Precedes
      (first :: (stays.filterMap (Period.report? listener window)).map fun entry => entry.2.value) := by
  induction stays generalizing first with
  | nil => exact .singleton _
  | cons period rest ih =>
      obtain ⟨step, chain⟩ := List.isChain_cons_cons.1 chain
      have reports := ih chain
      cases reported : period.report? listener window with
      | some entry =>
          have same := Period.report?_eq_some reported
          simp only [List.filterMap_cons, reported, List.map_cons, same]
          exact .cons_cons step reports
      | none =>
          -- What follows upon idleness is not idleness, and so it may follow upon anything.
          rw [Period.report?_eq_none reported] at reports
          simp only [List.filterMap_cons, reported]
          revert reports
          cases (rest.filterMap (Period.report? listener window)).map fun entry => entry.2.value with
          | nil => exact fun _ => .singleton _
          | cons next later =>
              intro reports
              obtain ⟨apart, chain⟩ := List.isChain_cons_cons.1 reports
              refine .cons_cons (fun idles => ?_) chain
              rcases apart idles with same | ⟨row, same⟩ <;> cases same

end Periods

namespace StateMachine

/-- The timer has received all that was sent, and what is reported goes to `listener`. -/
structure Prompt (listener : String) (window : Nat) (machine : StateMachine) : Prop where
  defers : machine.reporter.defers = Worker.State.isIdle
  window : machine.reporter.window = window
  listener : machine.reporter.listener = some listener
  received : machine.reporter.sent = []
  unfired : machine.reporter.expired = none

/-- The reports of a worker are those of its periods, but for the last one while it waits. -/
inductive Tells (listener : String) (window now : Nat) (machine : StateMachine)
    (moved : List (Nat × Worker.State)) (reports : List (Nat × StateReport)) : Prop
  | settled (prompt : machine.Prompt listener window) (nothing : machine.reporter.pending = none)
    (all : ∀ later, now ≤ later → reports = reportsOf listener window later moved)
  | waiting (prompt : machine.Prompt listener window) {earlier : List (Nat × Worker.State)}
    {since : Nat} (idles : moved = earlier ++ [(since, .idle)])
    (waits : machine.reporter.pending = some .idle)
    (holds : machine.reporter.held = some ⟨machine.reporter.generation, since + window⟩)
    (early : now ≤ since + window) (all : reports = reportsOf listener window since earlier)

/-- When what waits is due. -/
def due? (machine : StateMachine) : Option Nat :=
  if machine.reporter.isWaiting then machine.reporter.nextDue else none

variable {listener : String} {window : Nat} {machine : StateMachine}

namespace Prompt

variable (prompt : machine.Prompt listener window)
include prompt

theorem receiveAll : machine.reporter.receiveAll = machine.reporter := by
  rw [Debouncer.receiveAll, prompt.received]
  rfl

theorem due?_eq {value : Worker.State} {deadline : Deadline}
    (waits : machine.reporter.pending = some value) (holds : machine.reporter.held = some deadline) :
    machine.due? = some deadline.due := by
  simp [due?, Debouncer.isWaiting, waits, Debouncer.nextDue, prompt.receiveAll, holds]

/-- Idleness is not reported at once; the timer is set for the end of the window. -/
theorem transition_idle (now : Nat) :
    ∃ next, machine.transition now .idle = (next, none) ∧ next.Prompt listener window ∧
      next.reporter.pending = some .idle ∧
      next.reporter.held = some ⟨next.reporter.generation, now + window⟩ := by
  have deferred : machine.reporter.defers .idle = true := congrFun prompt.defers .idle
  refine ⟨(machine.transition now .idle).1, ?_, ⟨?_, ?_, ?_, ?_, ?_⟩, ?_, ?_⟩ <;>
    simp [transition, Debouncer.push, deferred, Debouncer.receiveAll, Debouncer.receive,
      prompt.received, prompt.unfired, prompt.defers, prompt.window, prompt.listener]

/-- All else is reported at once, and nothing waits any more. -/
theorem transition_active (now : Nat) {state : Worker.State} (active : state.isIdle = false) :
    ∃ next, machine.transition now state = (next, some ⟨listener, state⟩) ∧
      next.Prompt listener window ∧ next.reporter.pending = none := by
  have undeferred : machine.reporter.defers state = false := (congrFun prompt.defers state).trans active
  refine ⟨(machine.transition now state).1, ?_, ⟨?_, ?_, ?_, ?_, ?_⟩, ?_⟩ <;>
    simp [transition, Debouncer.push, undeferred, Debouncer.receiveAll, Debouncer.deliver,
      prompt.received, prompt.unfired, prompt.defers, prompt.window, prompt.listener]

/-- When nothing waits, the timer reports nothing. -/
theorem elapse_of_nothing (nothing : machine.reporter.pending = none) (now : Nat) :
    ∃ next, machine.elapse now = (next, none) ∧ next.Prompt listener window ∧
      next.reporter.pending = none := by
  rcases Debouncer.expire_cases machine.reporter now with same | ⟨deadline, -, holds, due, expired⟩
  · have idle : machine.elapse now = (machine, none) := by
      simp [elapse, Debouncer.elapse, prompt.receiveAll, same, Debouncer.fire, prompt.unfired]
    exact ⟨machine, idle, prompt, nothing⟩
  · refine ⟨(machine.elapse now).1, ?_, ⟨?_, ?_, ?_, ?_, ?_⟩, ?_⟩ <;>
      by_cases current : machine.reporter.generation = deadline.generation <;>
      simp [elapse, Debouncer.elapse, prompt.receiveAll, expired, Debouncer.fire, current, nothing,
        prompt.received, prompt.defers, prompt.window, prompt.listener]

/-- The timer reports what waits once that is due. -/
theorem elapse_of_waiting {value : Worker.State} {due : Nat}
    (waits : machine.reporter.pending = some value)
    (holds : machine.reporter.held = some ⟨machine.reporter.generation, due⟩) (now : Nat) :
    due ≤ now ∧ (∃ next, machine.elapse now = (next, some ⟨listener, value⟩) ∧
        next.Prompt listener window ∧ next.reporter.pending = none) ∨
      now < due ∧ machine.elapse now = (machine, none) := by
  by_cases late : due ≤ now
  · refine .inl ⟨late, (machine.elapse now).1, ?_, ⟨?_, ?_, ?_, ?_, ?_⟩, ?_⟩ <;>
      simp [elapse, Debouncer.elapse, prompt.receiveAll, Debouncer.expire, prompt.unfired, holds, late,
        Debouncer.fire, waits, Debouncer.deliver, prompt.received, prompt.defers, prompt.window,
        prompt.listener]
  · refine .inr ⟨Nat.lt_of_not_le late, ?_⟩
    simp [elapse, Debouncer.elapse, prompt.receiveAll, Debouncer.expire, prompt.unfired, holds, late,
      Debouncer.fire]

end Prompt

namespace Tells

variable {now : Nat} {moved : List (Nat × Worker.State)} {reports : List (Nat × StateReport)}
  (tells : machine.Tells listener window now moved reports)
include tells

theorem prompt : machine.Prompt listener window := by
  cases tells with
  | settled prompt | waiting prompt => exact prompt

/-- Once nothing waits or what waits is not due, the reports are those of all periods up to a move. -/
theorem reports_eq (apart : machine.due? ≠ some now) :
    reports = reportsOf listener window now moved := by
  cases tells with
  | settled prompt nothing all => exact all now (Nat.le_refl _)
  | @waiting prompt earlier since idles waits holds early all =>
      rw [prompt.due?_eq waits holds, Ne, Option.some.injEq] at apart
      rw [idles, reportsOf_concat, all,
        Period.report?_brief listener (Nat.lt_of_le_of_ne early (Ne.symm apart))]
      exact (List.append_nil _).symm

/-- A move that does not come just when something is due adds its report, or waits. -/
theorem transition (apart : machine.due? ≠ some now) (state : Worker.State) :
    (machine.transition now state).1.Tells listener window now (moved ++ [(now, state)])
      (reports ++ (machine.transition now state).2.toList.map (Prod.mk now)) := by
  have before := tells.reports_eq apart
  cases active : state.isIdle with
  | true =>
      obtain rfl : state = .idle := by cases state <;> first | rfl | cases active
      obtain ⟨next, made, prompt, waits, holds⟩ := tells.prompt.transition_idle now
      rw [made]
      exact .waiting prompt rfl waits holds (Nat.le_add_right _ _) ((List.append_nil _).trans before)
  | false =>
      obtain ⟨next, made, prompt, nothing⟩ := tells.prompt.transition_active now active
      rw [made]
      refine .settled prompt nothing fun later after => ?_
      rw [reportsOf_concat, ← before, Period.report?_active listener window active]
      rfl

/-- Time may pass until what waits is due. -/
theorem wait (milliseconds : Nat) (prompted : ∀ due ∈ machine.due?, now + milliseconds ≤ due) :
    machine.Tells listener window (now + milliseconds) moved reports := by
  cases tells with
  | settled prompt nothing all =>
      exact .settled prompt nothing fun later after =>
        all later (Nat.le_trans (Nat.le_add_right _ _) after)
  | waiting prompt idles waits holds early all =>
      exact .waiting prompt idles waits holds (prompted _ (prompt.due?_eq waits holds)) all

/-- When the timer has looked at the clock, the reports are those of all periods. -/
theorem elapse : (machine.elapse now).1.Tells listener window now moved
      (reports ++ (machine.elapse now).2.toList.map (Prod.mk now)) ∧
    reports ++ (machine.elapse now).2.toList.map (Prod.mk now) =
      reportsOf listener window now moved := by
  cases tells with
  | settled prompt nothing all =>
      obtain ⟨next, made, prompt, nothing⟩ := prompt.elapse_of_nothing nothing now
      rw [made]
      exact ⟨.settled prompt nothing fun later after => (List.append_nil _).trans (all later after),
        (List.append_nil _).trans (all now (Nat.le_refl _))⟩
  | @waiting prompt earlier since idles waits holds early all =>
      have lasts : ∀ later, since + window ≤ later →
          reports ++ [(since + window, ⟨listener, .idle⟩)] =
            reportsOf listener window later moved := by
        intro later passed
        rw [idles, reportsOf_concat, all, Period.report?_long listener passed]
        rfl
      rcases prompt.elapse_of_waiting waits holds now with
        ⟨due, next, made, prompt, nothing⟩ | ⟨ahead, made⟩
      · obtain rfl : now = since + window := Nat.le_antisymm early due
        rw [made]
        exact ⟨.settled prompt nothing lasts, lasts _ (Nat.le_refl _)⟩
      · rw [made]
        have apart : machine.due? ≠ some now := by
          rw [prompt.due?_eq waits holds, Ne, Option.some.injEq]
          exact Nat.ne_of_gt ahead
        have told : machine.Tells listener window now moved reports :=
          .waiting prompt idles waits holds early all
        simp only [Option.toList_none, List.map_nil, List.append_nil]
        exact ⟨told, told.reports_eq apart⟩

end Tells

end StateMachine

namespace Lifetime

variable {ε σ : Type}

/-- Whether a move fits a timer that acts on time, and a listener that stays: no time passes beyond the
moment at which something is due, and no state is announced just then. -/
def Permits (life : Lifetime ε σ) : Move ε → Prop
  | .work => life.worker.announcement?.isSome → life.worker.machine.due? ≠ some life.now
  | .wait milliseconds => ∀ due ∈ life.worker.machine.due?, life.now + milliseconds ≤ due
  | .subscribe _ | .unsubscribe | .drop => False
  | .init _ | .send _ | .collect _ | .elapse => True

instance (life : Lifetime ε σ) (move : Move ε) : Decidable (life.Permits move) :=
  match move with
  | .work => inferInstanceAs (Decidable
      (life.worker.announcement?.isSome → life.worker.machine.due? ≠ some life.now))
  | .wait milliseconds => inferInstanceAs (Decidable
      (∀ due ∈ life.worker.machine.due?, life.now + milliseconds ≤ due))
  | .subscribe _ | .unsubscribe | .drop => inferInstanceAs (Decidable False)
  | .init _ | .send _ | .collect _ | .elapse => inferInstanceAs (Decidable True)

variable [Scene σ] [Evaluator ε σ]

/-- Whether all of these moves do, one after the other. -/
def Timely (life : Lifetime ε σ) : List (Move ε) → Prop
  | [] => True
  | move :: rest => life.Permits move ∧ (life.step move).Timely rest

instance decidableTimely (life : Lifetime ε σ) : (moves : List (Move ε)) →
    Decidable (life.Timely moves)
  | [] => inferInstanceAs (Decidable True)
  | move :: rest =>
    have := decidableTimely (life.step move) rest
    inferInstanceAs (Decidable (life.Permits move ∧ (life.step move).Timely rest))

omit [Scene σ] [Evaluator ε σ] in
theorem filterMap_report?_announce (worker : Worker ε σ) (now : Nat) (state : Worker.State) :
    (worker.announce now state).2.filterMap report? =
      (worker.machine.transition now state).2.toList := by
  simp only [Worker.announce]
  cases (worker.machine.transition now state).2 <;> rfl

/-- A step reports what the state machine reports of the state that it announces. -/
theorem reports_of_step {worker next : Worker ε σ} {now : Nat} {effects : List Effect}
    (stepped : worker.step? now = some (next, effects)) :
    effects.filterMap report? = (worker.announcement?.bind fun state =>
      (worker.machine.transition now state).2).toList := by
  cases Worker.stepped_of_step? stepped with
  | started stage | loaded stage | replied stage =>
      simp [Worker.announcement?, stage, filterMap_report?_announce]
  | failed stage | crashed stage => simp [Worker.announcement?, stage]
  | taken stage inbox announced =>
      simp [Worker.announcement?, stage, inbox, announced, filterMap_report?_announce]
  | named stage inbox | stunned stage inbox =>
      simp [Worker.announcement?, stage, inbox, Request.activity?]
  | served stage =>
      simp [Worker.announcement?, stage, List.filterMap_map, Function.comp_def, report?]

/-- The reports of a life are those of its periods, but for the last one while it waits. -/
abbrev Tells (listener : String) (window : Nat) (life : Lifetime ε σ) : Prop :=
  life.worker.machine.Tells listener window life.now life.moved life.reports

namespace Tells

variable {listener : String} {window : Nat} {life : Lifetime ε σ}
  (tells : life.Tells listener window)
include tells

theorem work (apart : life.worker.announcement?.isSome → life.worker.machine.due? ≠ some life.now) :
    life.work.Tells listener window := by
  unfold Lifetime.work
  split
  · exact tells
  · next next effects stepped =>
    simp only [Lifetime.Tells, Worker.step_machine stepped, reports_of_step stepped]
    cases announced : life.worker.announcement? with
    | none => simpa using tells
    | some state => exact StateMachine.Tells.transition tells (apart (by rw [announced]; rfl)) state

theorem step (move : Move ε) (permitted : life.Permits move) :
    (life.step move).Tells listener window := by
  cases move with
  | init | send =>
      simp only [Lifetime.step, Lifetime.init, Lifetime.send]
      split <;> exact tells
  | collect ticket =>
      simp only [Lifetime.step, Lifetime.collect]
      split
      · next found =>
        obtain ⟨-, rfl⟩ := Worker.mem_outbox_of_collect? found
        exact tells
      · exact tells
  | subscribe | unsubscribe | drop => exact permitted.elim
  | work => exact tells.work permitted
  | elapse => exact (StateMachine.Tells.elapse tells).1
  | wait milliseconds => exact StateMachine.Tells.wait tells milliseconds permitted

theorem play (moves : List (Move ε)) (timely : life.Timely moves) :
    (life.play moves).Tells listener window := by
  induction moves generalizing life with
  | nil => exact tells
  | cons move rest ih => exact ih (tells.step move timely.1) timely.2

end Tells

/-! ## Runs with a listener -/

omit [Scene σ] [Evaluator ε σ] in
/-- Only requests lead to idleness. -/
theorem isChain_precedes (served : List (Nat × Request)) (state : Worker.State) :
    List.IsChain Worker.State.Precedes (state :: served.flatMap fun entry => entry.2.course) := by
  induction served generalizing state with
  | nil => exact .singleton _
  | cons entry rest ih =>
      obtain ⟨ticket, request⟩ := entry
      cases request with
      | names => exact ih state
      | evaluate => exact .cons_cons nofun (.cons_cons (fun _ => .inl rfl) (ih .idle))
      | compute row => exact .cons_cons nofun (.cons_cons (fun _ => .inr ⟨row, rfl⟩) (ih .idle))

omit [Scene σ] [Evaluator ε σ] in
/-- The states in which a worker serves, after those of its load. -/
theorem filter_courseOf (served : List (Nat × Request)) :
    (courseOf served).filter (fun state => !state.isIdle) =
      [.loading, .loaded] ++ served.filterMap fun entry => entry.2.activity? := by
  suffices (served.flatMap fun entry => entry.2.course).filter (fun state => !state.isIdle) =
      served.filterMap fun entry => entry.2.activity? by rw [courseOf, List.filter_append, this]; rfl
  induction served with
  | nil => rfl
  | cons entry rest ih =>
      obtain ⟨ticket, request⟩ := entry
      cases request with
      | names => exact ih
      | evaluate | compute => exact congrArg _ ih

/-- A worker on a clock whose states are reported from the start. -/
def attended (id window : Nat) (listener : String) : Lifetime ε σ :=
  (create id window).step (.subscribe listener)

theorem attended_tells (id window : Nat) (listener : String) :
    (attended id window listener : Lifetime ε σ).Tells listener window :=
  .settled ⟨rfl, rfl, rfl, rfl, rfl⟩ rfl fun _ _ => rfl

omit [Scene σ] [Evaluator ε σ] in
theorem Tells.activesOf {listener : String} {window : Nat} {life : Lifetime ε σ}
    (tells : life.Tells listener window) :
    activesOf life.reports = life.states.filter fun state => !state.isIdle := by
  cases tells with
  | settled prompt nothing all =>
      rw [all life.now (Nat.le_refl _), activesOf_reportsOf]
      rfl
  | waiting prompt idles waits holds early all =>
      rw [all, activesOf_reportsOf, states, idles]
      simp [Worker.State.isIdle]

omit [Scene σ] [Evaluator ε σ] in
theorem Regular.filter_states {life : Lifetime ε σ} (regular : life.Regular) :
    life.served = [] ∧ life.states.filter (fun state => !state.isIdle) <+: [.loading] ∨
      life.states.filter (fun state => !state.isIdle) =
        [.loading, .loaded] ++ life.served.filterMap fun entry => entry.2.activity? := by
  rw [← filter_courseOf]
  rcases regular.course with ⟨unserved, started⟩ | whole | busy
  · exact .inl ⟨unserved, started.filter _⟩
  · exact .inr (by rw [whole])
  · exact .inr (by simp [← busy, Worker.State.isIdle])

/-- On a worker with a listener from the start and a timer that acts on time, all that is reported goes
to the listener: its load, then every evaluation and computation that it takes up, in that order and
before the reply is there, and idleness for just those periods of it that last for the window. So
idleness is reported only directly after an evaluation or a computation, and when no move has been made
for the window the last state reported is the current one. -/
theorem reported_as_debounced (id window : Nat) (listener : String) (moves : List (Move ε))
    (timely : (attended id window listener : Lifetime ε σ).Timely moves) :
    let life := (attended id window listener : Lifetime ε σ).play moves
    let caught := life.step .elapse
    (life.reports <+: caught.reports ∧ ∀ entry ∈ caught.reports, entry.2.listener = listener) ∧
      (life.served = [] ∧ activesOf life.reports <+: [.loading] ∨
        activesOf life.reports =
          [.loading, .loaded] ++ life.served.filterMap fun entry => entry.2.activity?) ∧
      (∀ ticket request, (ticket, request) ∈ life.sent → ticket ∈ life.replied →
        ∃ earlier later, life.served = earlier ++ (ticket, request) :: later ∧
          [.loading, .loaded] ++ (earlier ++ [(ticket, request)]).filterMap
            (fun entry => entry.2.activity?) <+: activesOf life.reports) ∧
      (caught.reports = reportsOf listener window life.now life.moved ∧
        List.IsChain Worker.State.Precedes
          (.created :: caught.reports.map fun entry => entry.2.value)) ∧
      ∀ time state, life.moved.getLast? = some (time, state) → time + window ≤ life.now →
        caught.worker.state = state ∧
          caught.reports.getLast?.map (fun entry => entry.2.value) = some state := by
  intro life caught
  have tells : life.Tells listener window := (attended_tells id window listener).play moves timely
  have regular : life.Regular := ((create_regular id window).step (.subscribe listener)).play moves
  have all : caught.reports = reportsOf listener window life.now life.moved :=
    (StateMachine.Tells.elapse tells).2
  have actives := regular.filter_states
  rw [← tells.activesOf] at actives
  refine ⟨⟨List.prefix_append _ _, ?_⟩, actives, ?_, ⟨all, ?_⟩, ?_⟩
  · rw [all]
    exact fun entry => listener_of_mem_reportsOf listener window life.now life.moved
  · intro ticket request asked there
    have member := regular.mem_served asked there
    obtain ⟨earlier, later, split⟩ := List.append_of_mem member
    refine ⟨earlier, later, split, ?_⟩
    rcases actives with ⟨unserved, -⟩ | whole
    · simp [unserved] at member
    · have upTo : earlier ++ [(ticket, request)] <+: life.served := ⟨later, by simp [split]⟩
      rw [whole]
      exact (List.prefix_append_right_inj _).2 (upTo.filterMap _)
  · rw [all]
    refine isChain_reports listener window _ ?_
    rw [map_state_periods]
    have chain : List.IsChain Worker.State.Precedes (.created :: courseOf life.served) :=
      .cons_cons nofun (.cons_cons nofun (isChain_precedes life.served .loaded))
    obtain ⟨further, same⟩ := regular.states_prefix
    rw [← same, ← List.cons_append] at chain
    exact chain.left_of_append
  · intro time state last quiet
    obtain ⟨earlier, moved⟩ := List.getLast?_eq_some_iff.1 last
    have current : life.worker.state = state := by
      rw [regular.current, states, moved]
      simp
    refine ⟨current, ?_⟩
    cases reported : Period.report? listener window ⟨time, life.now, state⟩ with
    | some entry =>
        rw [all, moved, reportsOf_concat, reported]
        simp [Period.report?_eq_some reported]
    | none =>
        obtain rfl : state = .idle := Period.report?_eq_none reported
        rw [Period.report?_long listener quiet] at reported
        cases reported

/-- Of two times that a worker idles only the second, which lasts for the window, is reported. -/
theorem brief_idleness_unreported :
    let moves : List (Move Language.Bindings) :=
      [.init (.engine .empty), .work, .work, .send (.evaluate "x = 1"), .work, .work, .work, .wait 9,
        .send (.compute 0), .work, .work, .work, .wait 10]
    let attended : Lifetime Language.Bindings Language.Picture := attended 0 10 "panel"
    let caught := (attended.play moves).step .elapse
    attended.Timely moves ∧
      caught.states = [.loading, .loaded, .evaluating, .idle, .computing 0, .idle] ∧
      (caught.reports.map fun entry => (entry.1, entry.2.value)) =
        [(0, .loading), (0, .loaded), (0, .evaluating), (9, .computing 0), (19, .idle)] := by
  intro moves attended caught
  have timely : attended.Timely moves := by decide +kernel
  obtain ⟨-, -, -, ⟨all, -⟩, -⟩ := reported_as_debounced 0 10 "panel" moves timely
  refine ⟨timely, by decide +kernel, ?_⟩
  have told : caught.reports = reportsOf "panel" 10 (attended.play moves).now
    (attended.play moves).moved := all
  rw [told]
  decide +kernel

end Lifetime

end RenderFarm
