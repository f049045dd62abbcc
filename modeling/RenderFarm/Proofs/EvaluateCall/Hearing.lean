import RenderFarm.Proofs.EvaluateCall.Output

/-!
# What is heard of an evaluation

`HeardOfCall` says what a subscription that stays has heard of a call at any moment: the texts that worker 0
has written, each once and in order, and then the failure of the call, if that is published. While worker 0
still has something to write, the call is not done with waiting for it, so that no two publications of a call
are ever under way at a time (`InProgress.attends`).
-/

namespace RenderFarm

variable {ε σ Audience : Type}

section Effects

variable {listeners : Listeners ε σ Audience} {subscription : Subscription} {picks : Event → Bool}
  {heard : Farm ε σ Audience → List Event}

/-- The output of worker 0 is heard text by text, and no other. -/
theorem Listeners.Follows.performAll (follows : listeners.Follows subscription picks heard)
    (picked : ∀ text, picks (.stdoutWritten text) = true) (retains : listeners.Retains subscription)
    (wanted : subscription.kinds.has .stdoutWritten = true) (id : Nat) (effects : List Effect)
    {farm : Farm ε σ Audience} (lists : farm.bus.Lists subscription) :
    heard (effects.foldl (Farm.perform listeners id) farm) = heard farm ++
      (if id = 0 then effects.filterMap Effect.text? else []).map Event.stdoutWritten := by
  induction effects generalizing farm with
  | nil => simp
  | cons effect rest ih =>
      rw [List.foldl_cons, ih (retains.keeps.perform id farm effect lists)]
      cases effect with
      | reported report =>
          rw [Farm.perform, follows.noted]
          rfl
      | wrote text =>
          unfold Farm.perform
          dsimp only
          split
          · rw [follows.publish retains _ (picked text) wanted lists]
            simp [Event.noted, Effect.text?]
          · rfl

end Effects

namespace EvaluateCall

open Evaluations (Took Gathers)

/-- How much of what worker 0 is writing a subscription has heard, before the step of its thread: these texts,
and this of the publication under way. -/
inductive HeardWriting (subscription : Subscription) :
    Option Writing → List String → List String → List Event → Prop
  | silent {texts : List String} : HeardWriting subscription none texts [] []
  | between {spoken rest : List String} (speaks : spoken ++ rest ≠ []) :
    HeardWriting subscription (some ⟨rest, none⟩) (spoken ++ rest) spoken []
  | telling {spoken rest : List String} {text : String} {telling : Broadcast}
    (event : telling.event = .stdoutWritten text) (serves : telling.Serves subscription)
    (spares : telling.Spares subscription) :
    HeardWriting subscription (some ⟨rest, some telling⟩) (spoken ++ text :: rest) spoken
      (telling.told subscription)

/-- What of the publication of a failure a subscription has heard. -/
inductive HeardFailure (subscription : Subscription) (failure : Option String) :
    Option Broadcast → List Event → Prop
  | silent : HeardFailure subscription failure none []
  | telling {message : String} {telling : Broadcast} (failed : failure = some message)
    (event : telling.event = .evalError message) (serves : telling.Serves subscription)
    (spares : telling.Spares subscription) :
    HeardFailure subscription failure (some telling) (telling.told subscription)

theorem HeardWriting.of_spent {subscription : Subscription} {writing : Option Writing}
    {texts spoken : List String} {current : List Event}
    (hearing : HeardWriting subscription writing texts spoken current) (spent : texts = []) :
    writing = none ∧ spoken = [] ∧ current = [] := by
  cases hearing with
  | silent => exact ⟨rfl, rfl, rfl⟩
  | between speaks => exact absurd spent speaks
  | telling => simp at spent

theorem HeardFailure.of_none {subscription : Subscription} {failure : Option String}
    {telling : Option Broadcast} {failed : List Event}
    (failing : HeardFailure subscription failure telling failed) (sound : failure = none) : failed = [] := by
  cases failing with
  | silent => rfl
  | telling due => rw [sound] at due; cases due

variable [Scene σ] [Evaluator ε σ]

/-- What a subscription has heard of a call: the texts `said` before the last step of the thread of worker 0,
and `spoken` since. -/
structure HeardOfCall (before : Farm ε σ Audience) (source : String) (subscription : Subscription)
    (heard : Farm ε σ Audience → List Event) (call : EvaluateCall ε σ Audience)
    (said spoken : List String) (current failed : List Event) : Prop where
  asks : call.source = source
  inProgress : InProgress before source subscription call.farm call.phase said
  quiet : ∀ id, id ≠ 0 → ∀ writing ∈ call.writing id, writing.telling = none
  output : Farm.Has call.farm.workers 0 fun worker =>
    HeardWriting subscription (call.writing 0) worker.texts spoken current
  failing : HeardFailure subscription call.phase.failure? call.telling failed
  known : heard call.farm = heard before ++ (said ++ spoken).map Event.stdoutWritten ++ current ++ failed ++
    call.phase.tells (before.outcome? source) before.workers.size

variable (before : Farm ε σ Audience) (source : String) (subscription : Subscription)
    (heard : Farm ε σ Audience → List Event) in
/-- A subscription has heard of a call what worker 0 has written in it, and its failure. -/
def IsHeardOf (call : EvaluateCall ε σ Audience) : Prop :=
  ∃ said spoken current failed,
    HeardOfCall before source subscription heard call said spoken current failed

section Writing

variable {subscription : Subscription} {heard : Farm ε σ Audience → List Event}
  {before : Farm ε σ Audience} {source : String} {call : EvaluateCall ε σ Audience}
  {said spoken : List String} {current failed : List Event}
  (hears : HeardOfCall before source subscription heard call said spoken current failed)
include hears

theorem HeardOfCall.quiet_write (own : Option Writing) (id : Nat) (different : id ≠ 0) :
    ∀ writing ∈ (call.write 0 own).writing id, writing.telling = none := by
  simpa [write, different] using hears.quiet id different

/-- Another worker than worker 0 writes to nobody. -/
theorem HeardOfCall.write_other {id : Nat} (different : id ≠ 0) (rest : List String) :
    IsHeardOf before source subscription heard (call.write id (some ⟨rest, none⟩)) := by
  obtain ⟨asks, inProgress, quiet, output, failing, known⟩ := hears
  refine ⟨said, spoken, current, failed, asks, inProgress, fun other apart writing member => ?_, ?_,
    failing, known⟩
  · by_cases own : other = id
    · obtain rfl : ⟨rest, none⟩ = writing := by simpa [write, own] using member
      rfl
    · exact quiet other apart writing (by simpa [write, own] using member)
  · simpa [write, Ne.symm different] using output

end Writing

section Steps

variable {listeners : Listeners ε σ Audience} {subscription : Subscription}
  {heard : Farm ε σ Audience → List Event} {before : Farm ε σ Audience} {source : String}
  (spare : Farm.Unheard listeners fun farm => farm.workers)
  (follows : listeners.Follows subscription Event.isOfEvaluation heard)
  (retains : listeners.Retains subscription)
  {call : EvaluateCall ε σ Audience} {said spoken : List String} {current failed : List Event}
  (hears : HeardOfCall before source subscription heard call said spoken current failed)
include spare follows retains hears

omit [Scene σ] [Evaluator ε σ] follows retains hears in
/-- A step of a publication leaves the workers as they are. -/
theorem workers_of_step {telling : Broadcast} {next : Option Broadcast}
    {farm after : Farm ε σ Audience} (stepped : telling.step listeners.onEvent farm = (after, next)) :
    after.workers = farm.workers := by
  have same := (spare.lasting farm.workers).broadcast telling rfl
  rwa [stepped] at same

/-! ## The call -/

/-- A step of the publication of a failure. -/
theorem HeardOfCall.advance_telling {telling : Broadcast} (tells : call.telling = some telling) :
    IsHeardOf before source subscription heard (call.advance listeners) := by
  obtain ⟨farm, own, phase, under, writing⟩ := call
  obtain ⟨rfl, inProgress, quiet, ⟨worker, there, hearing⟩, failing, known⟩ := hears
  dsimp only at tells inProgress quiet there hearing failing known
  subst tells
  cases failing with
  | telling due event serves spares =>
      obtain ⟨primary, others, rfl, first⟩ := Call.Phase.exists_of_failure? due
      obtain ⟨-, still⟩ := inProgress.complete rfl rfl
      obtain ⟨silent, rfl, rfl⟩ := hearing.of_spent (still.of_getElem? there)
      have picked : Event.isOfEvaluation telling.event = true := by
        rw [event]
        rfl
      simp only [Call.Phase.tells, List.append_nil] at known
      unfold EvaluateCall.advance
      dsimp only
      cases stepped : telling.step listeners.onEvent farm with
      | mk after next =>
          obtain ⟨lists, spares⟩ := retains.step spares inProgress.lists stepped
          have workers := workers_of_step spare stepped
          have heard := follows.recounts picked serves inProgress.lists stepped known
          have output : Farm.Has after.workers 0 fun worker =>
              HeardWriting subscription (writing 0) worker.texts [] [] :=
            ⟨worker, workers ▸ there, silent ▸ .silent⟩
          cases next with
          | some next =>
              obtain ⟨same, serves, known⟩ := heard
              refine ⟨said, [], [], _, rfl, inProgress.of_workers workers lists, quiet, output,
                .telling due (same.trans event) serves (spares _ rfl), ?_⟩
              simpa only [List.append_nil, Call.Phase.tells] using known
          | none =>
              obtain ⟨reached, gathers⟩ := inProgress.gathers
              refine ⟨said, [], [], [], rfl, (inProgress.of_workers workers lists).conclude, quiet,
                output, .silent, ?_⟩
              have lowest := Evaluations.firstError_of_waiting gathers
              rw [first, inProgress.size] at lowest
              simp only [List.append_nil, Call.Phase.conclude, Call.Phase.tells, ← lowest]
              simpa only [List.append_nil, event, Option.map_some, Option.toList_some] using heard

/-- A step of the thread that evaluates. -/
theorem HeardOfCall.advance (errors : subscription.kinds.has .evalError = true)
    (manned : 0 < before.workers.size) :
    IsHeardOf before source subscription heard (call.advance listeners) := by
  cases tells : call.telling with
  | some telling => exact hears.advance_telling spare follows retains tells
  | none =>
      obtain ⟨farm, own, phase, under, writing⟩ := call
      obtain ⟨rfl, inProgress, quiet, ⟨worker, there, hearing⟩, failing, known⟩ := hears
      dsimp only at tells inProgress quiet there hearing failing known
      subst tells
      cases failing
      unfold EvaluateCall.advance
      dsimp only
      cases failed : phase.failure? with
      | some message =>
          have wanted : subscription.kinds.has (Event.evalError message).kind = true := errors
          obtain ⟨serves, silent⟩ := Broadcast.serves_start inProgress.lists wanted
          refine ⟨said, spoken, current, _, rfl, inProgress, quiet, ⟨worker, there, hearing⟩,
            .telling failed rfl serves (Broadcast.spares_start inProgress.lists _), ?_⟩
          simpa only [silent] using known
      | none =>
          obtain ⟨reached, gathers⟩ := inProgress.gathers
          have took := gathers.took listeners (inProgress.size ▸ manned)
          rw [← inProgress.size] at known
          have heard := gathers.tells follows (fun _ => rfl) retains errors inProgress.lists took known
          rw [inProgress.size] at heard
          obtain ⟨later, placed, same⟩ := thread_of_took spare took there
          refine ⟨said, spoken, current, [], rfl, inProgress.take spare retains took, quiet,
            ⟨later, placed, ?_⟩, .silent, heard⟩
          simpa only [Worker.texts, same] using hearing

/-! ## The workers -/

/-- The thread of a worker takes its step when all that it writes has been written. -/
theorem HeardOfCall.commit (texts : subscription.kinds.has .stdoutWritten = true) (id : Nat)
    (written : id = 0 → current = [] ∧ Farm.Has call.farm.workers 0 fun worker => spoken = worker.texts) :
    IsHeardOf before source subscription heard (call.commit listeners id) := by
  unfold EvaluateCall.commit
  split
  · exact ⟨said, spoken, current, failed, hears⟩
  · next worker found =>
    split
    · exact ⟨said, spoken, current, failed, hears⟩
    · next next effects stepped =>
      have ⟨asks, inProgress, quiet, output, failing, known⟩ := hears
      let shown := effects.filter (·.text?.isNone)
      have mute : shown.filterMap Effect.text? = [] := by simp [shown, List.filterMap_eq_nil_iff]
      have further := inProgress.work spare retains found stepped shown
      have workers : (shown.foldl (Farm.perform listeners id) (call.farm.setWorker id next)).workers =
          call.farm.workers.setIfInBounds id next := spare.performAll id shown _
      have placed : (call.farm.setWorker id next).bus.Lists subscription := inProgress.lists
      have same := follows.performAll (fun _ => rfl) retains texts id shown placed
      rw [mute, ite_self, List.map_nil, List.append_nil,
        follows.same call.farm (call.farm.setWorker id next) rfl rfl] at same
      by_cases first : id = 0
      · subst first
        obtain ⟨rfl, all⟩ := written rfl
        have texts : spoken = worker.texts := all.of_getElem? found
        rw [if_pos rfl, ← texts] at further
        refine ⟨said ++ spoken, [], [], failed, asks, further, hears.quiet_write none, ⟨next, ?_, ?_⟩,
          failing, same.trans ?_⟩
        · rw [workers]
          exact Farm.getElem?_setWorker found next
        · simpa [write] using .silent
        · simpa [write] using known
      · rw [if_neg first, List.append_nil] at further
        refine ⟨said, spoken, current, failed, asks, further, fun other different writing member => ?_,
          ?_, failing, ?_⟩
        · by_cases own : other = id
          · simp [write, own] at member
          · exact quiet other different writing (by simpa [write, own] using member)
        · rw [workers]
          refine Farm.Has.set_ne ?_ first next
          simpa [write, Ne.symm first] using output
        · exact same.trans known

theorem HeardOfCall.work_other (texts : subscription.kinds.has .stdoutWritten = true) {id : Nat}
    (different : id ≠ 0) : IsHeardOf before source subscription heard (call.work listeners id) := by
  have written : ∀ later : id = 0, current = [] ∧
      Farm.Has call.farm.workers 0 fun worker => spoken = worker.texts :=
    fun first => absurd first different
  unfold EvaluateCall.work
  split
  · next under => cases hears.quiet id different _ under
  · rw [if_neg different]
    exact hears.write_other different _
  · exact hears.commit spare follows retains texts id written
  · split
    · exact hears.commit spare follows retains texts id written
    · exact hears.write_other different _

/-- A step of the publication of a text of worker 0. -/
theorem HeardOfCall.work_telling {rest : List String} {telling : Broadcast}
    (under : call.writing 0 = some ⟨rest, some telling⟩) :
    IsHeardOf before source subscription heard (call.work listeners 0) := by
  have ⟨asks, inProgress, _, ⟨worker, there, hearing⟩, failing, known⟩ := hears
  rw [under] at hearing
  generalize owes : worker.texts = texts at hearing
  cases hearing with
  | @telling spoken _ text _ event serves spares =>
      have writes : worker.texts ≠ [] := by simp [owes]
      -- Worker 0 is still to write, so the call has nothing to publish and has not returned.
      obtain ⟨unfailing, untold⟩ := inProgress.attends there writes (before.outcome? source)
        before.workers.size
      obtain rfl := failing.of_none unfailing
      rw [untold, List.append_nil, List.append_nil] at known
      have picked : Event.isOfEvaluation telling.event = true := by
        rw [event]
        rfl
      unfold EvaluateCall.work
      rw [under]
      dsimp only
      cases stepped : telling.step listeners.onEvent call.farm with
      | mk after next =>
          obtain ⟨lists, spares⟩ := retains.step spares inProgress.lists stepped
          have workers := workers_of_step spare stepped
          have placed : after.workers[0]? = some worker := workers ▸ there
          have heard := follows.recounts picked serves inProgress.lists stepped known
          cases next with
          | some next =>
              obtain ⟨same, serves, known⟩ := heard
              refine ⟨said, spoken, next.told subscription, [], asks,
                inProgress.of_workers workers lists, hears.quiet_write _, ⟨worker, placed, ?_⟩, failing, ?_⟩
              · have further : HeardWriting subscription (some ⟨rest, some next⟩) (spoken ++ text :: rest)
                    spoken _ := .telling (same.trans event) serves (spares _ rfl)
                simpa [write, owes] using further
              · simpa [write, untold] using known
          | none =>
              refine ⟨said, spoken ++ [text], [], [], asks, inProgress.of_workers workers lists,
                hears.quiet_write _, ⟨worker, placed, ?_⟩, failing, ?_⟩
              · have further : HeardWriting subscription (some ⟨rest, none⟩) (spoken ++ [text] ++ rest)
                    (spoken ++ [text]) [] := .between (by simp)
                simpa [write, owes] using further
              · rw [event] at heard
                simpa [write, untold] using heard

/-- Worker 0 publishes what it writes, text by text. -/
theorem HeardOfCall.work_primary (texts : subscription.kinds.has .stdoutWritten = true) :
    IsHeardOf before source subscription heard (call.work listeners 0) := by
  obtain ⟨worker, there, hearing⟩ := hears.output
  generalize under : call.writing 0 = writing, owes : worker.texts = texts' at hearing
  cases hearing with
  | silent =>
      have owed : (call.farm.workers[0]?.map Worker.texts).getD [] = texts' := by simp [there, owes]
      unfold EvaluateCall.work
      rw [under, owed]
      dsimp only
      cases texts' with
      | nil => exact hears.commit spare follows retains texts 0 fun _ => ⟨rfl, worker, there, owes.symm⟩
      | cons text rest =>
          refine ⟨said, [], [], failed, hears.asks, hears.inProgress, hears.quiet_write _,
            ⟨worker, there, ?_⟩, hears.failing, hears.known⟩
          have begun : HeardWriting subscription (some ⟨text :: rest, none⟩) ([] ++ text :: rest) [] [] :=
            .between nofun
          simpa [write, owes] using begun
  | @between spoken rest speaks =>
      unfold EvaluateCall.work
      rw [under]
      cases rest with
      | nil =>
          exact hears.commit spare follows retains texts 0 fun _ =>
            ⟨rfl, worker, there, (owes.trans (List.append_nil _)).symm⟩
      | cons text rest =>
          have wanted : subscription.kinds.has (Event.stdoutWritten text).kind = true := texts
          obtain ⟨serves, silent⟩ := Broadcast.serves_start hears.inProgress.lists wanted
          dsimp only
          rw [if_pos rfl]
          refine ⟨said, spoken, [], failed, hears.asks, hears.inProgress, hears.quiet_write _,
            ⟨worker, there, ?_⟩, hears.failing, hears.known⟩
          have begun : HeardWriting subscription (some ⟨rest, some _⟩) (spoken ++ text :: rest) spoken _ :=
            .telling rfl serves (Broadcast.spares_start hears.inProgress.lists _)
          rw [silent] at begun
          simpa [write, owes] using begun
  | telling => exact hears.work_telling spare follows retains under

omit hears in
/-- What is heard of a call from its beginning on. -/
theorem isHeardOf_play (errors : subscription.kinds.has .evalError = true)
    (texts : subscription.kinds.has .stdoutWritten = true) (manned : 0 < before.workers.size)
    (fresh : ∀ worker ∈ before.workers, worker.Fresh) (lists : before.bus.Lists subscription)
    (moves : List Move) :
    IsHeardOf before source subscription heard ((start before source).play listeners moves) := by
  induction moves using List.reverseRecOn with
  | nil =>
      have there := Array.getElem?_eq_getElem manned
      refine ⟨[], [], [], [], rfl, .start manned fresh lists, nofun, ⟨_, there, .silent⟩, .silent, ?_⟩
      simp [play, start, Call.start, Call.Phase.tells]
  | append_singleton moves move ih =>
      obtain ⟨said, spoken, current, failed, hears⟩ := ih
      rw [play_append]
      cases move with
      | call => exact hears.advance spare follows retains errors manned
      | work id =>
          by_cases first : id = 0
          · exact first ▸ hears.work_primary spare follows retains texts
          · exact hears.work_other spare follows retains texts first

end Steps

end EvaluateCall

end RenderFarm
