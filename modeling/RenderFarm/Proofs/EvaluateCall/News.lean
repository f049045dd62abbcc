import RenderFarm.Proofs.EvaluateCall.Hearing
import RenderFarm.Proofs.EvaluateCall.Progress

/-!
# The news of an evaluation

An evaluation makes known what worker 0 writes, and then the failure of the lowest worker that fails, if
worker 0 answers (`Farm.news`). That is all that a subscription hears of it, at whatever pace the workers go,
and it has heard all of it when the call returns (`output_before_failure`). Where all workers hold the same
engine, the news is what that engine makes of the text, however many workers there are.
-/

namespace RenderFarm

variable {ε σ Audience : Type}

/-- What an engine makes known of an evaluation. -/
def Evaluation.news (evaluation : Evaluation ε σ) : List Event :=
  evaluation.writes.map Event.stdoutWritten ++
    match evaluation.verdict with
    | .failure _ message => [.evalError message]
    | .success .. | .panic => []

variable [Scene σ] [Evaluator ε σ]

/-- What an evaluation makes known. -/
def Farm.news (farm : Farm ε σ Audience) (source : String) : List Event :=
  (farm.output source).map Event.stdoutWritten ++
    match farm.outcome? source 0 with
    | some _ => ((Evaluations.failure? (farm.outcome? source) farm.workers.size).map
        Event.evalError).toList
    | none => []

namespace EvaluateCall

open Evaluations (Took Gathers)

/-- Where all answer the same, the first failure is that of any. -/
theorem failure?_of_alike {answers : Nat → Option Outcome} {count : Nat} {answer : Option Outcome}
    (alike : ∀ id < count, answers id = answer) (some : 0 < count) :
    Evaluations.failure? answers count = answer.bind Outcome.error := by
  obtain ⟨count, rfl⟩ := Nat.exists_eq_add_one.2 some
  rw [Evaluations.failure?, List.range_succ_eq_map, List.findSome?_cons, alike 0 count.succ_pos]
  cases error : answer.bind Outcome.error with
  | some message => rfl
  | none =>
      refine List.findSome?_eq_none_iff.2 fun id member => ?_
      obtain ⟨before, inside, rfl⟩ := List.mem_map.1 member
      rw [alike _ (Nat.succ_lt_succ (List.mem_range.1 inside)), error]

/-- The news among workers of one kind is that of their engine. -/
theorem news_of_alike {farm : Farm ε σ Audience} {engine : ε} (manned : 0 < farm.workers.size)
    (alike : ∀ worker ∈ farm.workers, ∃ scene, worker.Rests engine scene) (source : String) :
    farm.news source = (Evaluator.evaluate engine source).news := by
  have answers : ∀ id < farm.workers.size,
      farm.outcome? source id = (Evaluator.evaluate engine source).verdict.outcome? := by
    intro id inside
    obtain ⟨scene, rests⟩ := alike _ (Array.getElem_mem inside)
    rw [Farm.outcome?, Array.getElem?_eq_getElem inside]
    exact rests.outcome? source
  have output : farm.output source = (Evaluator.evaluate engine source).writes := by
    obtain ⟨scene, rests⟩ := alike _ (Array.getElem_mem manned)
    rw [Farm.output, Array.getElem?_eq_getElem manned]
    exact rests.output source
  rw [Farm.news, Evaluation.news, output, answers 0 manned, failure?_of_alike answers manned]
  cases (Evaluator.evaluate engine source).verdict <;> rfl

section Hearing

variable {listeners : Listeners ε σ Audience} {subscription : Subscription}
  {heard : Farm ε σ Audience → List Event} {before farm : Farm ε σ Audience} {source : String}

/-- A call that has returned has told its result. -/
theorem InProgress.tells_returned {result : Except Failure Outcome} {said : List String}
    (inProgress : InProgress before source subscription farm (.returned result) said) :
    said.map Event.stdoutWritten ++ (Call.Phase.returned result).tells (before.outcome? source)
      before.workers.size = before.news source := by
  obtain ⟨rfl, -⟩ := inProgress.complete rfl rfl
  obtain ⟨reached, gathers⟩ := inProgress.gathers
  cases gathers with
  | returned all concluded =>
      subst concluded
      unfold Farm.news
      cases before.outcome? source 0 <;> rfl

/-- What a call with a failure to tell will have told. -/
theorem InProgress.news_of_failure {primary : Outcome} {others : List Outcome} {said : List String}
    (inProgress : InProgress before source subscription farm (.waiting [] (primary :: others)) said)
    {message : String} (first : Farm.firstError (primary :: others) = some message) :
    before.news source = said.map Event.stdoutWritten ++ [.evalError message] := by
  obtain ⟨reached, gathers⟩ := inProgress.gathers
  have lowest := Evaluations.firstError_of_waiting gathers
  rw [first, inProgress.size] at lowest
  rw [← inProgress.conclude.tells_returned, Call.Phase.tells, ← lowest]
  rfl

theorem HeardFailure.told {failure : Option String} {telling : Option Broadcast} {failed : List Event}
    (failing : HeardFailure subscription failure telling failed) :
    failed = [] ∨ ∃ message, failure = some message ∧ failed = [.evalError message] := by
  cases failing with
  | silent => exact .inl rfl
  | @telling message _ due event =>
      unfold Broadcast.told
      split
      · exact .inr ⟨message, due, by rw [event]⟩
      · exact .inl rfl

theorem HeardWriting.prefix_texts {writing : Option Writing} {texts spoken : List String}
    {current : List Event} (hearing : HeardWriting subscription writing texts spoken current) :
    ∃ aloud, aloud <+: texts ∧
      spoken.map Event.stdoutWritten ++ current = aloud.map Event.stdoutWritten := by
  cases hearing with
  | silent => exact ⟨[], List.nil_prefix, rfl⟩
  | @between _ rest => exact ⟨spoken, List.prefix_append _ _, List.append_nil _⟩
  | @telling _ rest text telling event =>
      unfold Broadcast.told
      split
      · exact ⟨spoken ++ [text], ⟨rest, by simp⟩, by simp [event]⟩
      · exact ⟨spoken, List.prefix_append _ _, List.append_nil _⟩

variable {call : EvaluateCall ε σ Audience} {said spoken : List String} {current failed : List Event}
  (hears : HeardOfCall before source subscription heard call said spoken current failed)
include hears

theorem HeardOfCall.all_of_returned {result : Except Failure Outcome}
    (returned : call.phase = .returned result) :
    heard call.farm = heard before ++ before.news source := by
  obtain ⟨-, inProgress, -, ⟨worker, there, hearing⟩, failing, known⟩ := hears
  rw [returned] at inProgress failing known
  obtain ⟨-, still⟩ := inProgress.complete rfl rfl
  obtain ⟨-, rfl, rfl⟩ := hearing.of_spent (still.of_getElem? there)
  obtain rfl := failing.of_none rfl
  rw [known, ← inProgress.tells_returned]
  simp

/-- What has been heard is the first of the output, or all the news. -/
theorem HeardOfCall.prefix_or_all :
    (∃ texts, texts <+: before.output source ∧
      heard call.farm = heard before ++ texts.map Event.stdoutWritten) ∨
      heard call.farm = heard before ++ before.news source := by
  have ⟨_, inProgress, _, ⟨worker, there, hearing⟩, failing, known⟩ := hears
  cases due : call.phase.failure? with
  | some message =>
      obtain ⟨primary, others, phase, first⟩ := Call.Phase.exists_of_failure? due
      rw [phase] at inProgress known
      obtain ⟨all, still⟩ := inProgress.complete rfl rfl
      obtain ⟨-, rfl, rfl⟩ := hearing.of_spent (still.of_getElem? there)
      simp only [List.append_nil, Call.Phase.tells] at known
      rcases failing.told with rfl | ⟨same, failed, rfl⟩
      · exact .inl ⟨said, all ▸ List.prefix_rfl, known.trans (List.append_nil _)⟩
      · obtain rfl := Option.some.inj (due.symm.trans failed)
        refine .inr ?_
        rw [known, inProgress.news_of_failure first, List.append_assoc]
  | none =>
      obtain rfl := failing.of_none due
      cases phase : call.phase with
      | returned result => exact .inr (hears.all_of_returned phase)
      | sending | waiting =>
          obtain ⟨aloud, before, same⟩ := hearing.prefix_texts
          refine .inl ⟨said ++ aloud, ?_, ?_⟩
          · refine List.IsPrefix.trans ?_ (inProgress.written.of_getElem? there).prefix_texts
            exact (List.prefix_append_right_inj said).2 before
          · rw [known, phase, List.map_append, List.map_append, ← same]
            simp [Call.Phase.tells]

end Hearing

section Whole

variable {listeners : Listeners ε σ Audience} {subscription : Subscription}
  {heard : Farm ε σ Audience → List Event} {before : Farm ε σ Audience} {source : String}
  (spare : Farm.Unheard listeners fun farm => farm.workers)
  (follows : listeners.Follows subscription Event.isOfEvaluation heard)
  (retains : listeners.Retains subscription)
  (errors : subscription.kinds.has .evalError = true)
  (texts : subscription.kinds.has .stdoutWritten = true)
include spare follows retains errors texts

/-- A call whose publications and writes are each made in one piece tells the same. -/
theorem reach_tells (manned : 0 < before.workers.size)
    (fresh : ∀ worker ∈ before.workers, worker.Fresh) (lists : before.bus.Lists subscription)
    {reached : Farm ε σ Audience × Call.Phase}
    (reach : Evaluations.Reach listeners source
      (before, (Call.start before.workers.size source).phase) reached) :
    ∃ said, InProgress before source subscription reached.1 reached.2 said ∧
      heard reached.1 = heard before ++ said.map Event.stdoutWritten ++
        reached.2.tells (before.outcome? source) before.workers.size := by
  induction reach with
  | refl => exact ⟨[], .start manned fresh lists, by simp [Call.start, Call.Phase.tells]⟩
  | tail _ last ih =>
      obtain ⟨said, inProgress, known⟩ := ih
      cases last with
      | call farm phase =>
          obtain ⟨reached, gathers⟩ := inProgress.gathers
          have took := gathers.took listeners (inProgress.size ▸ manned)
          rw [← inProgress.size] at known
          have heard := gathers.tells follows (fun _ => rfl) retains errors inProgress.lists took known
          rw [inProgress.size] at heard
          exact ⟨said, inProgress.take spare retains took, heard⟩
      | @work farm phase id worker next effects there stepped =>
          have placed : (farm.setWorker id next).bus.Lists subscription := inProgress.lists
          have told := follows.performAll (fun _ => rfl) retains texts id effects placed
          rw [follows.same farm (farm.setWorker id next) rfl rfl, Worker.texts_of_step stepped] at told
          refine ⟨_, inProgress.work spare retains there stepped effects, ?_⟩
          -- What worker 0 writes comes before the call has told anything.
          have first : (if id = 0 then worker.texts else []) = [] ∨
              phase.tells (before.outcome? source) before.workers.size = [] := by
            by_cases own : id = 0
            · subst own
              rw [if_pos rfl, or_iff_not_imp_left]
              exact fun writes => (inProgress.attends there writes _ _).2
            · exact .inl (if_neg own)
          rw [told, known]
          rcases first with silent | untold
          · simp [silent]
          · simp [untold]

/-- A subscription to failures and output that stays hears of an evaluation what worker 0 writes, each text
once and in order, and then the failure of the lowest worker that fails, if worker 0 answers; and nothing
else. It has heard all of that when the call returns, as the call always can. Where all workers rest with the
same engine, this is what the engine makes of the text. -/
theorem output_before_failure {farm : Farm ε σ Audience} (manned : 0 < farm.workers.size)
    (fresh : ∀ worker ∈ farm.workers, worker.Fresh) (lists : farm.bus.Lists subscription)
    (source : String) :
    (∀ moves, let after := (start farm source).play listeners moves
      ((∃ said, said <+: farm.output source ∧
          heard after.farm = heard farm ++ said.map Event.stdoutWritten) ∨
        heard after.farm = heard farm ++ farm.news source) ∧
      (∀ result, after.phase = .returned result →
        heard after.farm = heard farm ++ farm.news source) ∧
      ∃ more result, (after.play listeners more).phase = .returned result) ∧
    heard (farm.evaluate listeners source).2 = heard farm ++ farm.news source ∧
    ∀ engine, (∀ worker ∈ farm.workers, ∃ scene, worker.Rests engine scene) →
      farm.news source = (Evaluator.evaluate engine source).news := by
  refine ⟨fun moves => ?_, ?_, fun engine alike => ?_⟩
  · obtain ⟨said, spoken, current, failed, hears⟩ :=
      isHeardOf_play spare follows retains errors texts manned fresh lists moves
    exact ⟨hears.prefix_or_all, fun result returned => hears.all_of_returned returned, canReturn spare _⟩
  · obtain ⟨said, inProgress, told⟩ := reach_tells spare follows retains errors texts manned fresh lists
      (Evaluations.evaluate_reach spare farm source)
    rw [told, List.append_assoc, inProgress.tells_returned]
  · exact news_of_alike manned alike source

end Whole

section Alike

open RenderFarm.Language
open Evaluations (loadedWith)

/-- A callback that records the output and the failures of evaluations, and nothing else. -/
def transcribing : Listeners Bindings Picture (List Event) where
  onEvent id event farm :=
    if id = ⟨0⟩ ∧ event.isOfEvaluation then { farm with audience := farm.audience ++ [event] }
    else farm
  onState _ audience := audience

/-- Workers that hold the same engine. -/
def alike (count : Nat) : Farm Bindings Picture (List Event) :=
  { Farm.start 0 (Array.replicate count (loadedWith [])) [] with
    bus := (EventBus.empty.subscribe .all).2 }

theorem transcribing_keeps (id : SubscriptionId) (event : Event)
    (farm : Farm Bindings Picture (List Event)) :
    (transcribing.onEvent id event farm).workers = farm.workers ∧
      (transcribing.onEvent id event farm).bus = farm.bus := by
  simp only [transcribing]
  split <;> exact ⟨rfl, rfl⟩

theorem transcribing_follows :
    transcribing.Follows ⟨⟨0⟩, .all, .callback⟩ Event.isOfEvaluation fun farm => farm.audience :=
  Listeners.follows_callback (fun record => record) _
    (fun event farm => by simp only [transcribing, true_and]; split <;> rfl)
    (fun other different event farm => by simp [transcribing, different]) fun _ _ => rfl

theorem loadedWith_rests : (loadedWith []).Rests .empty none :=
  ⟨rfl, rfl, by decide⟩

/-- Any number of workers tell what one of them writes, and its failure once. -/
theorem alike_tell_output_once :
    let told := [.stdoutWritten "1", .stdoutWritten "\n", .evalError "line 2: bad"]
    (∀ moves result,
      ((start (alike 3) "print 1\nraise bad").play transcribing moves).phase = .returned result →
        ((start (alike 3) "print 1\nraise bad").play transcribing moves).farm.audience = told) ∧
      ((alike 3).evaluate transcribing "print 1\nraise bad").2.audience = told := by
  intro told
  have fresh : ∀ worker ∈ (alike 3).workers, worker.Fresh := by
    intro worker member
    obtain rfl : worker = loadedWith [] := (Array.mem_replicate.1 member).2
    exact Lifetime.play_fresh 0 0 _
  have rests : ∀ worker ∈ (alike 3).workers, ∃ scene, worker.Rests .empty scene := by
    intro worker member
    obtain rfl : worker = loadedWith [] := (Array.mem_replicate.1 member).2
    exact ⟨none, loadedWith_rests⟩
  obtain ⟨slow, whole, same⟩ := output_before_failure
    ⟨fun _ _ => rfl, fun _ _ => rfl, fun id event farm => (transcribing_keeps id event farm).1⟩
    transcribing_follows (fun id event farm lists => (transcribing_keeps id event farm).2 ▸ lists)
    (by decide) (by decide) (by decide : 0 < (alike 3).workers.size) fresh (by decide)
    "print 1\nraise bad"
  have news : (alike 3).news "print 1\nraise bad" = told := by
    rw [same .empty rests]
    decide +kernel
  rw [news] at whole
  refine ⟨fun moves result returned => ?_, whole⟩
  have heard := (slow moves).2.1 result returned
  rwa [news] at heard

end Alike

end EvaluateCall

end RenderFarm
