import RenderFarm.Language.Evaluation
import RenderFarm.Proofs.Pool.Progress

/-!
# What comes of a pool

The thread that starts a pool looks at the loads in the order of the workers, so what comes of a pool
does not depend on the order in which they end. Every schedule that keeps giving each thread its turn
comes to a result (`exists_result`), and it is that of `Pool.spawn` for all of them
(`spawn_settled`).
-/

namespace RenderFarm.Pool

variable {ε σ : Type} [Scene σ] [Evaluator ε σ]

namespace Spawning

/-! ## Whole runs -/

section Runs

variable (config : Pool.Config) (observer : Nat → Option String) (load : Nat → Load ε)

/-- A pool on its way after some turns. -/
def after (turns : List Turn) : Spawning ε σ :=
  (start config.size).play config observer load turns

theorem after_concat (turns : List Turn) (turn : Turn) :
    after config observer load (turns ++ [turn]) =
      ((after config observer load turns).step config observer load turn : Spawning ε σ) := by
  simp [after, play]

theorem sound_after (turns : List Turn) :
    Sound config observer load (after config observer load turns : Spawning ε σ) := by
  induction turns using List.reverseRecOn with
  | nil =>
    have first : Sound config observer load (⟨#[], .launching (List.range' 0 config.size)
        ((List.range 0).map fun id => (id, 0))⟩ : Spawning ε σ) :=
      .launching (Nat.zero_add _) rfl fun id below => absurd below (Nat.not_lt_zero id)
    rwa [← List.range_eq_range'] at first
  | append_singleton turns turn ih =>
    rw [after_concat]
    exact (ih.step turn).1

/-- Every thread has a turn again and again. -/
def Fair (count : Nat) (schedule : Nat → Turn) : Prop :=
  ∀ turn, (∃ later, turn ≤ later ∧ schedule later = .main) ∧
    ∀ id < count, ∃ later now, turn ≤ later ∧ schedule later = .work id now

/-- A pool on its way after the first turns of a schedule. -/
def follow (schedule : Nat → Turn) (count : Nat) : Spawning ε σ :=
  after config observer load ((List.range count).map schedule)

variable (schedule : Nat → Turn)

theorem follow_succ (count : Nat) :
    (follow config observer load schedule (count + 1) : Spawning ε σ) =
      (follow config observer load schedule count).step config observer load (schedule count) := by
  rw [follow, List.range_succ, List.map_append, List.map_singleton, after_concat, follow]

theorem sound_follow (count : Nat) :
    Sound config observer load (follow config observer load schedule count : Spawning ε σ) :=
  sound_after config observer load _

/-- What is left to do never grows, and without less of it nothing changes. -/
theorem follow_add (count more : Nat) :
    (follow config observer load schedule (count + more) : Spawning ε σ) =
        follow config observer load schedule count ∨
      left config.size (follow config observer load schedule (count + more) : Spawning ε σ) <
        left config.size (follow config observer load schedule count : Spawning ε σ) := by
  induction more with
  | zero => exact .inl rfl
  | succ more ih =>
    have step := ((sound_follow (σ := σ) config observer load schedule (count + more)).step
      (schedule (count + more))).2
    rw [← follow_succ, Nat.add_assoc] at step
    obtain same | less := step
    · rw [same]
      exact ih
    · obtain same | fewer := ih
      · exact .inr (same ▸ less)
      · exact .inr (less.trans fewer)

/-- A turn that would leave less to do now will have done so when it comes. -/
theorem exists_less_of_scheduled {count later : Nat} (future : count ≤ later)
    (less : left config.size ((follow config observer load schedule count :
        Spawning ε σ).step config observer load (schedule later)) <
      left config.size (follow config observer load schedule count : Spawning ε σ)) :
    ∃ last, left config.size (follow config observer load schedule last : Spawning ε σ) <
      left config.size (follow config observer load schedule count : Spawning ε σ) := by
  obtain ⟨more, rfl⟩ := Nat.exists_eq_add_of_le future
  obtain same | fewer := follow_add (σ := σ) config observer load schedule count more
  · exact ⟨count + more + 1, by rwa [follow_succ, same]⟩
  · exact ⟨count + more, fewer⟩

variable {schedule}

/-- A pool that is still on its way will have less to do. -/
theorem exists_result_or_less (fair : Fair config.size schedule) (count : Nat) :
    (∃ result, (follow config observer load schedule count : Spawning ε σ).result? =
        some result) ∨
      ∃ last, left config.size (follow config observer load schedule last : Spawning ε σ) <
        left config.size (follow config observer load schedule count : Spawning ε σ) := by
  have moves := (sound_follow (σ := σ) config observer load schedule count).moves
  generalize made : (follow config observer load schedule count).advance config observer load =
    next at moves
  cases moves with
  | returned phase => exact .inl ⟨_, by rw [result?, phase]⟩
  | @waits id steps inside early stands =>
    obtain ⟨later, now, future, scheduled⟩ := (fair count).2 id inside
    refine .inr (exists_less_of_scheduled config observer load schedule future ?_)
    rw [scheduled, step, work_of_stands stands early]
    exact left_stepped stands early _ inside
  | advances sound phase threads =>
    obtain ⟨later, future, scheduled⟩ := (fair count).1
    refine .inr (exists_less_of_scheduled config observer load schedule future ?_)
    rw [scheduled, step, made]
    exact Nat.add_lt_add_of_lt_of_le phase (Finset.sum_le_sum fun id _ => threads id)

/-- A pool comes to a result when each thread has its turn again and again. -/
theorem exists_result (fair : Fair config.size schedule) : ∃ count result,
    (follow config observer load schedule count : Spawning ε σ).result? = some result := by
  have reach : ∀ bound count,
      left config.size (follow config observer load schedule count : Spawning ε σ) = bound →
      ∃ last result,
        (follow config observer load schedule last : Spawning ε σ).result? = some result := by
    intro bound
    induction bound using Nat.strong_induction_on with
    | _ bound ih =>
      intro count amount
      obtain ⟨result, done⟩ | ⟨last, less⟩ :=
        exists_result_or_less (σ := σ) config observer load fair count
      · exact ⟨count, result, done⟩
      · exact ih _ (amount ▸ less) last rfl
  exact reach _ 0 rfl

end Runs

end Spawning

/-! ## The result -/

theorem failureOf?_eq_none_iff {id : Nat} {load : Load ε} :
    failureOf? id load = none ↔ ∃ engine, load = .engine engine := by
  cases load <;> simp [failureOf?]

omit [Scene σ] [Evaluator ε σ] in
theorem get_eq_error_iff {workers : Array (Worker ε σ)} {id : Nat} :
    get workers id = .error (.noSuchWorker id) ↔ workers.size ≤ id := by
  rw [← Array.getElem?_eq_none_iff, get]
  cases workers[id]? <;> simp

section Result

open Spawning

variable (config : Pool.Config) (observer : Nat → Option String) (load : Nat → Load ε)

/-- What a pool is said to fail with that is started at any time. -/
theorem findSome?_launched (now : Nat) :
    ((List.range config.size).map fun id =>
      (launched now config.idleWindow (observer id) (load id) id : Launched ε σ)).findSome?
        (·.failure) =
      (List.range config.size).findSome? fun id => failureOf? id (load id) := by
  rw [List.findSome?_map]
  exact congrArg (List.findSome? · _) (funext fun id => launched_failure ..)

theorem spawn_of_firstFailure (now : Nat) {failure : Failure}
    (first : FirstFailure config load failure) :
    (Pool.spawn now config observer load).map Prod.fst =
      (.error failure : Except Failure (Array (Worker ε σ))) := by
  obtain ⟨id, inside, failed, others⟩ := first
  have cut : List.range config.size =
      List.range id ++ id :: List.range' (id + 1) (config.size - (id + 1)) := by
    have start := List.range'_append_1 (s := 0) (m := id) (n := config.size - id)
    rw [Nat.zero_add, Nat.add_sub_cancel' inside.le, ← List.range_eq_range',
      ← List.range_eq_range'] at start
    rw [← start, ← List.range'_succ, show config.size - (id + 1) + 1 = config.size - id by omega]
  have found : (List.range config.size).findSome? (fun id => failureOf? id (load id)) =
      some failure :=
    List.findSome?_eq_some_iff.2 ⟨_, id, _, cut, failed, fun lower member =>
      others lower (List.mem_range.1 member)⟩
  simp only [spawn, findSome?_launched, found]
  rfl

theorem spawn_of_heard (now : Nat) {workers : Array (Worker ε σ)}
    (size : workers.size = config.size)
    (heard : ∀ id < config.size, Heard config observer load workers id) :
    (Pool.spawn now config observer load).map Prod.fst = .ok workers := by
  have none : (List.range config.size).findSome? (fun id => failureOf? id (load id)) = none :=
    List.findSome?_eq_none_iff.2 fun id member => (heard id (List.mem_range.1 member)).1
  simp only [spawn, findSome?_launched, none, Except.map]
  refine congrArg Except.ok (Array.ext_getElem? fun id => ?_)
  rw [List.getElem?_toArray, List.getElem?_map, List.getElem?_map]
  by_cases inside : id < config.size
  · rw [List.getElem?_range inside, (heard id inside).2, told, ← launched_worker _ _ _ _ now]
    rfl
  · rw [Array.getElem?_eq_none (by omega), List.getElem?_eq_none (by simpa using inside)]
    rfl

variable {config observer load}

/-- A worker whose engine was heard of is there under its index. -/
theorem get_of_heard {workers : Array (Worker ε σ)} {id : Nat}
    (heard : Heard config observer load workers id) :
    ∃ worker engine, get workers id = .ok worker ∧ worker.id = id ∧ worker.state = .loaded ∧
      load id = .engine engine ∧ worker.thread = .ready engine none := by
  obtain ⟨engine, loads⟩ := failureOf?_eq_none_iff.1 heard.1
  obtain ⟨index, state, thread⟩ := launched_loaded (σ := σ) config.idleWindow (observer id)
    (load id) id 0 loads
  exact ⟨told config observer load id, engine, by rw [get, heard.2], index, state, loads, thread⟩

/-- There is only one lowest-numbered worker without an engine. -/
theorem firstFailure_unique {failure : Failure} (first : FirstFailure config load failure) {id : Nat}
    (lower : ∀ lower < id, ∃ engine, load lower = .engine engine) {own : Failure}
    (failed : failureOf? id (load id) = some own) : failure = own := by
  obtain ⟨least, inside, reported, others⟩ := first
  obtain before | rfl | later := Nat.lt_trichotomy least id
  · cases (failureOf?_eq_none_iff.2 (lower least before)).symm.trans reported
  · exact Option.some.inj (reported.symm.trans failed)
  · cases (others id later).symm.trans failed

variable (config observer load)

/-- However the threads take turns, a pool comes to a result, and to the same. It is there if all
engines load, at least one, and then holds a loaded worker under each index; otherwise the failure is
that of the lowest-numbered worker without an engine, whichever load failed first. -/
theorem spawn_settled :
    (∀ schedule, Fair config.size schedule → ∃ count result,
      (follow config observer load schedule count : Spawning ε σ).result? = some result) ∧
    ∀ turns result, (after config observer load turns : Spawning ε σ).result? = some result →
      ((∃ workers, result = .ok workers) ↔
        ∀ id < max config.requested 1, ∃ engine, load id = .engine engine) ∧
      (∀ workers, result = .ok workers → workers.size = max config.requested 1 ∧ ∀ id,
        (get workers id = .error (.noSuchWorker id) ↔ workers.size ≤ id) ∧
        (id < workers.size → ∃ worker engine, get workers id = .ok worker ∧ worker.id = id ∧
          worker.state = .loaded ∧ load id = .engine engine ∧
          worker.thread = .ready engine none)) ∧
      (∀ id < max config.requested 1, (∀ lower < id, ∃ engine, load lower = .engine engine) →
        (∀ message, load id = .failure message → result = .error (.engineNotLoaded id message)) ∧
        (load id = .panic → result = .error (.disconnected id))) ∧
      ∀ now, result = (Pool.spawn now config observer load).map Prod.fst := by
  refine ⟨fun schedule fair => exists_result config observer load fair, fun turns result done => ?_⟩
  have sound := sound_after (σ := σ) config observer load turns
  generalize after config observer load turns = spawning at done sound
  cases sound with
  | launching | awaiting | leaving => cases done
  | @ready workers size heard =>
    cases done
    have loads : ∀ id < max config.requested 1, ∃ engine, load id = .engine engine :=
      fun id below => failureOf?_eq_none_iff.1 (heard id below).1
    refine ⟨⟨fun _ => loads, fun _ => ⟨workers, rfl⟩⟩, ?_, ?_, fun now =>
      (spawn_of_heard config observer load now size heard).symm⟩
    · rintro _ ⟨⟩
      exact ⟨size, fun id => ⟨get_eq_error_iff, fun below => get_of_heard (heard id (size ▸ below))⟩⟩
    · intro id below _
      obtain ⟨engine, loaded⟩ := loads id below
      exact ⟨fun message failed => (nomatch loaded.symm.trans failed),
        fun failed => (nomatch loaded.symm.trans failed)⟩
  | @failed workers failure size first quiet =>
    cases done
    refine ⟨⟨fun ready => ?_, fun loads => ?_⟩, fun workers ready => (nomatch ready),
      fun id _ lower => ⟨fun message failed => ?_, fun failed => ?_⟩, fun now =>
      (spawn_of_firstFailure config observer load now first).symm⟩
    · obtain ⟨_, ready⟩ := ready
      cases ready
    · obtain ⟨id, inside, reported, -⟩ := first
      cases (failureOf?_eq_none_iff.2 (loads id inside)).symm.trans reported
    · exact congrArg Except.error (firstFailure_unique first lower (by rw [failed, failureOf?]))
    · exact congrArg Except.error (firstFailure_unique first lower (by rw [failed, failureOf?]))

end Result

open Spawning in
/-- Three workers, of which the higher-numbered are always ahead. The last one has panicked while the
second one is still loading, and the failure is still that of the second. -/
theorem second_failure_after_last_panic :
    let load : Nat → Load Language.Bindings := fun id =>
      if id = 0 then .engine .empty else if id = 1 then .failure "no engine" else .panic
    let schedule : Nat → Turn := fun turn =>
      if turn < 4 ∨ turn % 4 = 0 then .main else .work (3 - turn % 4) turn
    let reached : Nat → Spawning _ Language.Picture :=
      follow ⟨3, 100, ""⟩ (fun _ => none) load schedule
    Fair 3 schedule ∧ (reached 10).workers.toList.map Worker.listens = [true, true, false] ∧
      ∃ count result, (reached count).result? = some result ∧
        result = .error (.engineNotLoaded 1 "no engine") := by
  intro load schedule reached
  have fair : Fair 3 schedule := by
    intro turn
    refine ⟨⟨4 * turn, by omega, if_pos (by omega)⟩, fun id below =>
      ⟨4 * turn + (7 - id), 4 * turn + (7 - id), by omega, ?_⟩⟩
    have place : 3 - (4 * turn + (7 - id)) % 4 = id := by omega
    exact (if_neg (by omega)).trans (by rw [place])
  have ahead : (reached 10).workers.toList.map Worker.listens = [true, true, false] := by decide
  obtain ⟨results, settled⟩ :=
    spawn_settled (σ := Language.Picture) ⟨3, 100, ""⟩ (fun _ => none) load
  obtain ⟨count, result, done⟩ := results schedule fair
  obtain ⟨-, -, failures, -⟩ := settled _ result done
  have lower : ∀ lower < 1, ∃ engine, load lower = .engine engine := by
    intro lower below
    obtain rfl : lower = 0 := by omega
    exact ⟨_, rfl⟩
  exact ⟨fair, ahead, count, result, done, (failures 1 (by decide) lower).1 _ rfl⟩

end RenderFarm.Pool
