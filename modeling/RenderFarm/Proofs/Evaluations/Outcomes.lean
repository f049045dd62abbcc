import RenderFarm.Proofs.Evaluations.Alone
import RenderFarm.Proofs.Evaluations.Gathering
import RenderFarm.Proofs.Event.Following
import RenderFarm.Proofs.Farm.Renders

/-!
# What an evaluation comes to

An evaluation ends with what worker 0 answers and one event for the failure of the lowest worker that
failed (`Concludes`), whatever the answers and the interleaving of the call with the workers
(`concluded_by_answers`). What was told is what a subscription to failures that stays has heard.
-/

namespace RenderFarm

variable {ε σ Audience : Type}

/-- What an evaluation comes to with workers that answer like this. Without an answer of worker 0 there
is no outcome and nothing is told; otherwise its answer is the outcome, and the failure of the lowest
worker that failed is told, if there is one. -/
def Concludes (answers : Nat → Option Outcome) (result : Except Failure Outcome)
    (before after : List Event) : Prop :=
  match answers 0 with
  | none => result = .error (.disconnected 0) ∧ after = before
  | some outcome => result = .ok outcome ∧
    ((∃ id message, answers id = some (.failure message) ∧
        (∀ lower < id, ∀ other, answers lower ≠ some (.failure other)) ∧
        after = before ++ [.evalError message]) ∨
      (∀ id message, answers id ≠ some (.failure message)) ∧ after = before)

/-! ## What is heard of a call -/

/-- Whether an event tells of a failed evaluation. -/
def Event.isFailure : Event → Bool
  | .evalError _ => true
  | .sceneLoaded .. | .lineComputed .. | .sceneRendered .. | .stdoutWritten .. => false

/-- What has been told of a call that stands there. -/
def Call.Phase.tells (answers : Nat → Option Outcome) (count : Nat) : Call.Phase → List Event
  | .returned (.ok _) => ((Evaluations.failure? answers count).map Event.evalError).toList
  | .returned (.error _) | .sending .. | .waiting .. => []

namespace Evaluations

/-- A call that has returned with the answer of worker 0 and told the first failure is concluded. -/
theorem concludes_of_tells {answers : Nat → Option Outcome} {count : Nat}
    {result : Except Failure Outcome} {before after : List Event}
    (absent : ∀ id, count ≤ id → answers id = none)
    (concluded : result = match answers 0 with
      | some outcome => .ok outcome
      | none => .error (.disconnected 0))
    (told : after = before ++ (Call.Phase.returned result).tells answers count) :
    Concludes answers result before after := by
  unfold Concludes
  cases answer : answers 0 with
  | none =>
      rw [answer] at concluded
      subst concluded
      exact ⟨rfl, told.trans (List.append_nil _)⟩
  | some outcome =>
      rw [answer] at concluded
      subst concluded
      refine ⟨rfl, ?_⟩
      cases failed : failure? answers count with
      | some message =>
          obtain ⟨id, own, lowest⟩ := failure?_eq_some answers count failed
          refine .inl ⟨id, message, own, lowest, ?_⟩
          rw [told, Call.Phase.tells, failed]
          rfl
      | none =>
          refine .inr ⟨failure?_eq_none answers count failed absent, ?_⟩
          rw [told, Call.Phase.tells, failed]
          exact List.append_nil _

section Hearing

variable [Scene σ] [Evaluator ε σ] {listeners : Listeners ε σ Audience} {subscription : Subscription}
  {heard : Farm ε σ Audience → List Event} {answers : Nat → Option Outcome} {source : String}

/-- When none is waited for any more, the first failure is that of the lowest worker that failed. -/
theorem firstError_of_waiting {workers : Array (Worker ε σ)}
    {reached : List Nat} {outcomes : List Outcome}
    (gathers : Gathers answers source workers reached (.waiting [] outcomes)) :
    Farm.firstError outcomes = failure? answers workers.size := by
  cases gathers with
  | waiting done all sent asked headed got =>
      rw [got, firstError_filterMap, failure?, ← sent]
      simp

/-- A step of a call is heard of when it tells a failure, and only then. -/
theorem Gathers.tells {picks : Event → Bool} (follows : listeners.Follows subscription picks heard)
    (picked : ∀ message, picks (.evalError message) = true) (retains : listeners.Retains subscription)
    (wanted : subscription.kinds.has .evalError = true) {farm after : Farm ε σ Audience}
    (lists : farm.bus.Lists subscription) {reached : List Nat} {phase next : Call.Phase}
    (gathers : Gathers answers source farm.workers reached phase)
    (took : Took listeners source farm phase next after) {before : List Event}
    (known : heard farm = before ++ phase.tells answers farm.workers.size) :
    heard after = before ++ next.tells answers farm.workers.size := by
  cases took with
  | stayed | turned => exact known
  | sent | received => exact (follows.same farm (farm.setWorker _ _) rfl rfl).trans known
  | missed =>
      split <;> exact known
  | told primary others =>
      simp only [Call.Phase.tells, List.append_nil] at known
      simp only [Call.Phase.tells, ← firstError_of_waiting gathers]
      cases Farm.firstError (primary :: others) with
      | none => simpa using known
      | some message =>
          simp only [follows.publish retains (.evalError message) (picked message) wanted lists, known]
          rfl

theorem Took.lists (retains : listeners.Retains subscription) {farm after : Farm ε σ Audience}
    {phase next : Call.Phase} (took : Took listeners source farm phase next after)
    (lists : farm.bus.Lists subscription) : after.bus.Lists subscription := by
  cases took with
  | stayed | turned | sent | received | missed => exact lists
  | told primary others =>
      split
      · exact retains.publish _ lists
      · exact lists

/-- A call sends each worker one request and nothing else. -/
theorem Took.issued {farm after : Farm ε σ Audience}
    (spare : Farm.Unheard listeners fun farm => farm.workers) {phase next : Call.Phase}
    (took : Took listeners source farm phase next after) {id : Nat} {worker : Worker ε σ}
    (there : farm.workers[id]? = some worker) :
    Farm.Has after.workers id fun later => later.issued =
      worker.issued + (Call.unsent ⟨source, phase⟩).head?.toList.count id := by
  cases took with
  | stayed sent =>
      rw [sent]
      exact ⟨worker, there, rfl⟩
  | turned | missed => exact ⟨worker, there, rfl⟩
  | @sent own unsent tickets asked found =>
      by_cases same : own = id
      · subst same
        obtain rfl : worker = asked := Option.some.inj (there.symm.trans found)
        exact ⟨_, Farm.getElem?_setWorker there _, by simp [Call.unsent, Worker.send]⟩
      · refine Farm.Has.set_ne ⟨worker, there, ?_⟩ same _
        simp [Call.unsent, same]
  | received found got =>
      obtain ⟨-, rfl⟩ := Worker.mem_outbox_of_collect? got
      have before : Farm.Has farm.workers id fun later => later.issued = worker.issued :=
        ⟨worker, there, rfl⟩
      exact before.set found fun kept => kept
  | told primary others =>
      rw [Gathers.workers_told spare]
      exact ⟨worker, there, rfl⟩

omit [Scene σ] [Evaluator ε σ] in
theorem recipients_toList (sends : List (Nat × Nat)) (number : Nat) (first : Option Nat) :
    recipients (sends ++ (first.map (Prod.mk number)).toList) number =
      recipients sends number ++ first.toList := by
  cases first <;> simp

/-- A call alone among the threads of the workers, and what a subscription to failures has heard. -/
structure UnderWay (farm : Farm ε σ Audience) (source : String) (subscription : Subscription)
    (heard : Farm ε σ Audience → List Event) (evaluations : Evaluations ε σ Audience) : Prop where
  size : evaluations.farm.workers.size = farm.workers.size
  lists : evaluations.farm.bus.Lists subscription
  asked : ∀ (id : Nat) worker, farm.workers[id]? = some worker →
    Farm.Has evaluations.farm.workers id fun later =>
      later.issued = worker.issued + (recipients evaluations.sends 0).count id
  stands : ∃ phase, evaluations.calls = [⟨source, phase⟩] ∧
    Gathers (farm.outcome? source) source evaluations.farm.workers
      (recipients evaluations.sends 0) phase ∧
    heard evaluations.farm = heard farm ++ phase.tells (farm.outcome? source) farm.workers.size

namespace UnderWay

variable {farm : Farm ε σ Audience} {evaluations : Evaluations ε σ Audience}

theorem start (fresh : ∀ worker ∈ farm.workers, worker.Fresh) (lists : farm.bus.Lists subscription) :
    UnderWay farm source subscription heard (start farm [source]) where
  size := rfl
  lists := lists
  asked := fun id worker there => ⟨worker, there, rfl⟩
  stands := by
    refine ⟨.sending (List.range farm.workers.size) [], rfl, ?_, (List.append_nil _).symm⟩
    refine .sending rfl rfl nofun fun id member => ?_
    have there := Array.getElem?_eq_getElem (List.mem_range.1 member)
    refine ⟨_, there, fresh _ (Array.getElem_mem _), ?_⟩
    simp [Farm.outcome?, there]

variable (underWay : UnderWay farm source subscription heard evaluations)
include underWay

theorem advance (spare : Farm.Unheard listeners fun farm => farm.workers)
    (follows : listeners.Follows subscription Event.isFailure heard)
    (retains : listeners.Retains subscription)
    (wanted : subscription.kinds.has .evalError = true) (manned : 0 < farm.workers.size)
    (number : Nat) :
    UnderWay farm source subscription heard (evaluations.advance listeners number) := by
  obtain ⟨phase, calls, gathers, known⟩ := underWay.stands
  cases number with
  | succ number =>
      have absent : evaluations.calls[number + 1]? = none := by simp [calls]
      simpa only [Evaluations.advance, absent] using underWay
  | zero =>
      have own : evaluations.calls[0]? = some ⟨source, phase⟩ := by simp [calls]
      have took := gathers.took listeners (underWay.size ▸ manned)
      obtain ⟨size, further⟩ := gathers.take spare took
      have reached := recipients_toList evaluations.sends 0 (Call.unsent ⟨source, phase⟩).head?
      simp only [Evaluations.advance, own]
      refine ⟨size.trans underWay.size, took.lists retains underWay.lists, fun id worker there => ?_,
        _, by simp [calls], reached ▸ further, ?_⟩
      · obtain ⟨later, found, issued⟩ := underWay.asked id worker there
        obtain ⟨last, placed, more⟩ := took.issued spare found
        refine ⟨last, placed, ?_⟩
        dsimp only
        rw [more, issued, reached, List.count_append, Nat.add_assoc]
      · rw [← underWay.size] at known ⊢
        exact gathers.tells follows (fun _ => rfl) retains wanted underWay.lists took known

theorem work (spare : Farm.Unheard listeners fun farm => farm.workers)
    (follows : listeners.Follows subscription Event.isFailure heard)
    (retains : listeners.Retains subscription) (id : Nat) :
    UnderWay farm source subscription heard (evaluations.work listeners id) := by
  unfold Evaluations.work
  split
  · exact underWay
  · next worker there =>
    split
    · exact underWay
    · next next effects stepped =>
      obtain ⟨phase, calls, gathers, known⟩ := underWay.stands
      have same := spare.performAll id effects (evaluations.farm.setWorker id next)
      have kept : (effects.foldl (Farm.perform listeners id)
          (evaluations.farm.setWorker id next)).workers =
            evaluations.farm.workers.setIfInBounds id next := same
      have keeps := follows.keeps (fun _ => rfl) (heard evaluations.farm)
      refine ⟨?_, ?_, fun other own there' => ?_, phase, calls, ?_, ?_⟩
      · rw [kept, Array.size_setIfInBounds, underWay.size]
      · exact retains.keeps.performAll id effects underWay.lists
      · rw [kept]
        exact (underWay.asked other own there').set there fun issued =>
          (Worker.step_issued stepped).trans issued
      · rw [kept]
        exact gathers.work there stepped
      · exact (keeps.performAll id effects (keeps.setWorker _ _ _ rfl)).trans known

theorem play (spare : Farm.Unheard listeners fun farm => farm.workers)
    (follows : listeners.Follows subscription Event.isFailure heard)
    (retains : listeners.Retains subscription)
    (wanted : subscription.kinds.has .evalError = true) (manned : 0 < farm.workers.size)
    (moves : List Move) :
    UnderWay farm source subscription heard (evaluations.play listeners moves) := by
  induction moves generalizing evaluations with
  | nil => exact underWay
  | cons move rest ih =>
      refine ih ?_
      cases move with
      | call number => exact underWay.advance spare follows retains wanted manned number
      | work id => exact underWay.work spare follows retains id

/-- A call that has returned is concluded by what the workers would have answered. -/
theorem concludes {result : Except Failure Outcome}
    (returned : evaluations.calls = [⟨source, .returned result⟩]) :
    Concludes (farm.outcome? source) result (heard farm) (heard evaluations.farm) := by
  obtain ⟨phase, calls, gathers, known⟩ := underWay.stands
  rw [returned] at calls
  cases calls
  cases gathers with
  | returned all result =>
      have absent : ∀ id, farm.workers.size ≤ id → farm.outcome? source id = none := by
        intro id outside
        simp [Farm.outcome?, outside]
      exact concludes_of_tells absent result known

end UnderWay

/-- A run is an evaluation, and a render if worker 0 answers with a scene. -/
theorem run_of_concludes {farm : Farm ε σ Audience} {before after : List Event}
    (concludes : Concludes answers (farm.evaluate listeners source).1 before after) :
    (farm.run listeners source).1 = (farm.evaluate listeners source).1 ∧
      (farm.run listeners source).2 = match (answers 0).bind Outcome.scene with
        | some size => ((farm.evaluate listeners source).2.render listeners size).2
        | none => (farm.evaluate listeners source).2 := by
  unfold Concludes at concludes
  unfold Farm.run
  cases evaluated : farm.evaluate listeners source with
  | mk result last =>
      rw [evaluated] at concludes
      cases answer : answers 0 with
      | none =>
          rw [answer] at concludes
          obtain ⟨rfl, -⟩ := concludes
          exact ⟨rfl, rfl⟩
      | some outcome =>
          rw [answer] at concludes
          obtain ⟨rfl, -⟩ := concludes
          cases scene : outcome.scene <;> simp [scene]

/-- Whatever the workers of a farm answer, be it an outcome, a failure or nothing, each of them is sent
the text once, and all of them before the first reply is awaited. The call can always come to return,
and then it is concluded by the answers: it returns that of worker 0, after it has told the failure of
the lowest worker that failed, if any did; or that worker 0 is gone, and nothing is told. A run renders
just when worker 0 answers with a scene, with the dimensions of that. -/
theorem concluded_by_answers (spare : Farm.Unheard listeners fun farm => farm.workers)
    (inert : Farm.Unheard listeners fun farm => farm.sizes)
    (follows : listeners.Follows subscription Event.isFailure heard)
    (retains : listeners.Retains subscription)
    (wanted : subscription.kinds.has .evalError = true) {farm : Farm ε σ Audience}
    (manned : 0 < farm.workers.size) (fresh : ∀ worker ∈ farm.workers, worker.Fresh)
    (lists : farm.bus.Lists subscription) (source : String) :
    (∀ moves, let after := (start farm [source]).play listeners moves
      ∃ phase, after.calls = [⟨source, phase⟩] ∧
        recipients after.sends 0 ++ Call.unsent ⟨source, phase⟩ = List.range farm.workers.size ∧
        (∀ (id : Nat) worker, farm.workers[id]? = some worker →
          Farm.Has after.farm.workers id fun later =>
            later.issued = worker.issued + (recipients after.sends 0).count id) ∧
        (match phase with
          | .returned result =>
            Concludes (farm.outcome? source) result (heard farm) (heard after.farm)
          | .sending .. | .waiting .. => heard after.farm = heard farm) ∧
        ∃ more result, (after.play listeners more).calls = [⟨source, .returned result⟩]) ∧
      let evaluated := farm.evaluate listeners source
      let ran := farm.run listeners source
      Concludes (farm.outcome? source) evaluated.1 (heard farm) (heard evaluated.2) ∧
        ran.1 = evaluated.1 ∧
        match (farm.outcome? source 0).bind Outcome.scene with
        | some size => ran.2 = (evaluated.2.render listeners size).2 ∧
          ran.2.sizes = farm.sizes ++ [size]
        | none => ran.2 = evaluated.2 ∧ ran.2.sizes = farm.sizes := by
  have underWay : ∀ moves, UnderWay farm source subscription heard
      ((Evaluations.start farm [source]).play listeners moves) := fun moves =>
    (UnderWay.start fresh lists).play spare follows retains wanted manned moves
  obtain ⟨moves, last, calls⟩ := exists_moves_evaluate spare farm source
  have evaluated := last ▸ (underWay moves).concludes calls
  obtain ⟨same, ran⟩ := run_of_concludes evaluated
  refine ⟨fun moves => ?_, evaluated, same, ?_⟩
  · obtain ⟨phase, calls, gathers, known⟩ := (underWay moves).stands
    obtain ⟨final, result, reach⟩ := exists_reach_returned source spare phase
      ((Evaluations.start farm [source]).play listeners moves).farm
    obtain ⟨more, -, returned⟩ := reach.exists_moves rfl calls
    refine ⟨phase, calls, ?_, (underWay moves).asked, ?_, more, result, returned⟩
    · rw [← (underWay moves).size]
      cases gathers with
      | sending all => exact all
      | waiting _ all | returned all => exact (List.append_nil _).trans all
    · cases phase with
      | returned result => exact (underWay moves).concludes calls
      | sending | waiting => exact known.trans (List.append_nil _)
  · have sizes := Farm.sizes_evaluate inert farm source
    cases scene : (farm.outcome? source 0).bind Outcome.scene with
    | none =>
        rw [scene] at ran
        exact ⟨ran, (congrArg Farm.sizes ran).trans sizes⟩
    | some size =>
        rw [scene] at ran
        have begun := Farm.sizes_render inert (farm.evaluate listeners source).2 size
        rw [sizes] at begun
        exact ⟨ran, (congrArg Farm.sizes ran).trans begun⟩

end Hearing

section Mixed

open RenderFarm.Language

/-- A callback that records failures, and nothing else. -/
def recording : Listeners Bindings Picture (List Event) where
  onEvent id event farm :=
    if id = ⟨0⟩ ∧ event.isFailure then { farm with audience := farm.audience ++ [event] } else farm
  onState _ audience := audience

/-- A worker that was loaded and has been sent these texts. -/
def loadedWith (sources : List String) : Worker Bindings Picture :=
  ((Lifetime.create 0 0).play ([.init (.engine .empty), .work, .work] ++
    sources.map fun source => .send (.evaluate source))).worker

/-- Two workers that differ in what the name `n` is bound to, with one between them that has no thread,
and one that has the name unbound. -/
def mixed : Farm Bindings Picture (List Event) :=
  { Farm.start 0 #[loadedWith ["n = 1"], .create 1 0, loadedWith ["n = 0"], loadedWith []] [] with
    bus := (EventBus.empty.subscribe (.single .evalError)).2 }

theorem recording_keeps (id : SubscriptionId) (event : Event)
    (farm : Farm Bindings Picture (List Event)) :
    (recording.onEvent id event farm).workers = farm.workers ∧
      (recording.onEvent id event farm).sizes = farm.sizes ∧
      (recording.onEvent id event farm).bus = farm.bus := by
  simp only [recording]
  split <;> exact ⟨rfl, rfl, rfl⟩

theorem recording_follows :
    recording.Follows ⟨⟨0⟩, .single .evalError, .callback⟩ Event.isFailure fun farm => farm.audience :=
  Listeners.follows_callback (fun record => record) _
    (fun event farm => by simp only [recording, true_and]; split <;> rfl)
    (fun other different event farm => by simp [recording, different]) fun _ _ => rfl

theorem mixed_fresh : ∀ worker ∈ mixed.workers, worker.Fresh := by
  intro worker member
  have loaded : ∀ sources, (loadedWith sources).Fresh := fun sources => Lifetime.play_fresh 0 0 _
  simp only [mixed, Farm.start, List.mem_toArray, List.mem_cons, List.not_mem_nil, or_false] at member
  rcases member with rfl | rfl | rfl | rfl
  · exact loaded _
  · exact Worker.create_fresh 1 0
  · exact loaded _
  · exact loaded _

/-- Worker 1 is left out, and the failure of worker 3 is not told. -/
theorem mixed_answers_tell_one_failure :
    let evaluated := mixed.evaluate recording "scene n 2"
    (List.range 4).map (mixed.outcome? "scene n 2") =
        [some (.success "<scene 1x2>" (some ⟨1, 2⟩)), none,
          some (.failure "line 1: width must be a positive integer, got 0"),
          some (.failure "line 1: name 'n' is not defined")] ∧
      evaluated.1 = .ok (.success "<scene 1x2>" (some ⟨1, 2⟩)) ∧
      evaluated.2.audience = [.evalError "line 1: width must be a positive integer, got 0"] ∧
      (mixed.run recording "scene n 2").2.sizes = [⟨1, 2⟩] := by
  intro evaluated
  have answers : (List.range 4).map (mixed.outcome? "scene n 2") =
      [some (.success "<scene 1x2>" (some ⟨1, 2⟩)), none,
        some (.failure "line 1: width must be a positive integer, got 0"),
        some (.failure "line 1: name 'n' is not defined")] := by
    decide +kernel
  obtain ⟨-, concluded, -, rendered⟩ := concluded_by_answers
    ⟨fun _ _ => rfl, fun _ _ => rfl, fun id event farm => (recording_keeps id event farm).1⟩
    ⟨fun _ _ => rfl, fun _ _ => rfl, fun id event farm => (recording_keeps id event farm).2.1⟩
    recording_follows (fun id event farm lists => (recording_keeps id event farm).2.2 ▸ lists) (by decide)
    (by decide : 0 < mixed.workers.size) mixed_fresh (by decide) "scene n 2"
  have first : mixed.outcome? "scene n 2" 0 = some (.success "<scene 1x2>" (some ⟨1, 2⟩)) :=
    (List.cons.inj answers).1
  have second : mixed.outcome? "scene n 2" 1 = none := (List.cons.inj (List.cons.inj answers).2).1
  have third : mixed.outcome? "scene n 2" 2 =
      some (.failure "line 1: width must be a positive integer, got 0") :=
    (List.cons.inj (List.cons.inj (List.cons.inj answers).2).2).1
  unfold Concludes at concluded
  rw [first] at concluded rendered
  obtain ⟨returned, told⟩ := concluded
  refine ⟨answers, returned, ?_, rendered.2⟩
  rcases told with ⟨id, message, own, lowest, told⟩ | ⟨sound, -⟩
  · have bounded : id ≤ 2 := Nat.le_of_not_lt fun above => lowest 2 above _ third
    obtain rfl | rfl | rfl : id = 0 ∨ id = 1 ∨ id = 2 := by omega
    · rw [first] at own
      cases own
    · rw [second] at own
      cases own
    · rw [third] at own
      cases own
      exact told
  · exact absurd third (sound 2 _)

end Mixed

end Evaluations

end RenderFarm
