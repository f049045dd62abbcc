import Mathlib.Algebra.Order.BigOperators.Group.Finset
import RenderFarm.Proofs.Pool.Spawning

/-!
# Pools on their way

What holds of a pool on its way at every point is told by `Sound`: how many workers are done with in
the phase that it is in, and where the threads of the others stand. Every step keeps it, and every
step that is not a wait lowers what is `left` to do (`Sound.step`). The thread that starts the pool
waits only for a worker that has a step to take (`Sound.moves`).
-/

namespace RenderFarm.Pool

variable {ε σ : Type} [Scene σ] [Evaluator ε σ]

namespace Spawning

/-! ## At every point of the way -/

section Sound

variable (config : Pool.Config) (observer : Nat → Option String) (load : Nat → Load ε)

/-- Worker `id` after so many steps of the thread that loads its engine. -/
def Stands (workers : Array (Worker ε σ)) (id count : Nat) : Prop :=
  workers[id]? = some (trail config.idleWindow (observer id) (load id) id count)

/-- Worker `id` is loading its engine, or has just done what it can. -/
def Underway (workers : Array (Worker ε σ)) (id : Nat) : Prop :=
  ∃ count ≤ 2, Stands config observer load workers id count

/-- Worker `id` when the news of its load has been taken. -/
def told (id : Nat) : Worker ε σ :=
  (launched 0 config.idleWindow (observer id) (load id) id).worker

/-- The engine of worker `id` has loaded, and the news of that was taken. -/
def Heard (workers : Array (Worker ε σ)) (id : Nat) : Prop :=
  failureOf? id (load id) = none ∧ workers[id]? = some (told config observer load id)

/-- The thread of worker `id` has nothing to do. -/
def Quiet (workers : Array (Worker ε σ)) (id : Nat) : Prop :=
  ∃ worker, workers[id]? = some worker ∧ ∀ now, worker.step? now = none

/-- The failure of the lowest-numbered worker whose engine does not load. -/
def FirstFailure (failure : Failure) : Prop :=
  ∃ id < config.size, failureOf? id (load id) = some failure ∧
    ∀ lower < id, failureOf? lower (load lower) = none

/-- What holds of a pool on its way. In the phase that it is in, `done` workers are done with and
`rest` are still to come. -/
inductive Sound : Spawning ε σ → Prop
  | launching {workers : Array (Worker ε σ)} {done rest : Nat} (all : done + rest = config.size)
      (size : workers.size = done)
      (underway : ∀ id < done, Underway config observer load workers id) :
      Sound ⟨workers,
        .launching (List.range' done rest) ((List.range done).map fun id => (id, 0))⟩
  | awaiting {workers : Array (Worker ε σ)} {done rest : Nat} (all : done + rest = config.size)
      (size : workers.size = config.size)
      (heard : ∀ id < done, Heard config observer load workers id)
      (underway : ∀ id, done ≤ id → id < config.size →
        Underway config observer load workers id) :
      Sound ⟨workers, .awaiting ((List.range' done rest).map fun id => (id, 0))⟩
  | leaving {workers : Array (Worker ε σ)} {failure : Failure} {done rest : Nat}
      (all : done + rest = config.size) (size : workers.size = config.size)
      (first : FirstFailure config load failure) (quiet : ∀ id < done, Quiet workers id)
      (underway : ∀ id, done ≤ id → id < config.size →
        Underway config observer load workers id ∨ Quiet workers id) :
      Sound ⟨workers, .leaving failure (List.range' done rest)⟩
  | ready {workers : Array (Worker ε σ)} (size : workers.size = config.size)
      (heard : ∀ id < config.size, Heard config observer load workers id) :
      Sound ⟨workers, .returned (.ok ())⟩
  | failed {workers : Array (Worker ε σ)} {failure : Failure} (size : workers.size = config.size)
      (first : FirstFailure config load failure)
      (quiet : ∀ id < config.size, Quiet workers id) :
      Sound ⟨workers, .returned (.error failure)⟩

end Sound

/-! ## What is left to do -/

/-- The number of steps that the thread of worker `id` takes; a worker that is not there yet will
take two. -/
def threadLeft (workers : Array (Worker ε σ)) (id : Nat) : Nat :=
  (workers[id]?.map fun worker => stepsLeft worker.thread).getD 2

/-- At least the number of steps that the thread takes that starts the pool, waits apart. -/
def phaseLeft (size : Nat) : Phase → Nat
  | .launching ids _ => ids.length + (size + size + 3)
  | .awaiting tickets => tickets.length + (size + 2)
  | .leaving _ ids => ids.length + 1
  | .returned _ => 0

def left (size : Nat) (spawning : Spawning ε σ) : Nat :=
  phaseLeft size spawning.phase + ∑ id ∈ Finset.range size, threadLeft spawning.workers id

section Steps

variable {config : Pool.Config} {observer : Nat → Option String} {load : Nat → Load ε}
variable {workers : Array (Worker ε σ)} {id other count : Nat}

theorem Stands.threadLeft (stands : Stands config observer load workers id count)
    (most : count ≤ 2) : threadLeft workers id = 2 - count := by
  rw [Spawning.threadLeft, stands]
  exact stepsLeft_trail _ _ _ _ most

/-- A worker that is loading its engine has something to do. -/
theorem Stands.not_quiet (stands : Stands config observer load workers id count)
    (early : count < 2) : ¬Quiet workers id := by
  rintro ⟨worker, there, none⟩
  obtain ⟨effects, steps⟩ :=
    step?_trail (σ := σ) config.idleWindow (observer id) (load id) id 0 early
  obtain rfl := Option.some.inj (there.symm.trans stands)
  cases (none 0).symm.trans steps

theorem Stands.quiet (stands : Stands config observer load workers id 2) : Quiet workers id :=
  ⟨_, stands, fun now => step?_trail_two _ _ _ _ now⟩

/-- A worker on its way has a step to take, or has taken them all. -/
theorem Underway.early_or_done (underway : Underway config observer load workers id) :
    (∃ count < 2, Stands config observer load workers id count) ∨
      Stands config observer load workers id 2 := by
  obtain ⟨count, most, stands⟩ := underway
  obtain early | rfl := Nat.lt_or_eq_of_le most
  · exact .inl ⟨count, early, stands⟩
  · exact .inr stands

theorem Heard.quiet (heard : Heard config observer load workers id) : Quiet workers id :=
  ⟨_, heard.2, fun now => step?_launched _ _ _ _ 0 now⟩

theorem Underway.early_or_quiet (underway : Underway config observer load workers id) :
    (∃ count < 2, Stands config observer load workers id count) ∨ Quiet workers id :=
  underway.early_or_done.imp_right (·.quiet)

/-! ## Steps of the workers -/

/-- What is said of a worker looks at no other. -/
theorem Underway.congr {next : Array (Worker ε σ)} (same : next[id]? = workers[id]?)
    (underway : Underway config observer load workers id) :
    Underway config observer load next id := by
  obtain ⟨count, most, stands⟩ := underway
  exact ⟨count, most, same.trans stands⟩

theorem Heard.congr {next : Array (Worker ε σ)} (same : next[id]? = workers[id]?)
    (heard : Heard config observer load workers id) : Heard config observer load next id :=
  ⟨heard.1, same.trans heard.2⟩

theorem Quiet.congr {next : Array (Worker ε σ)} (same : next[id]? = workers[id]?)
    (quiet : Quiet workers id) : Quiet next id := by
  obtain ⟨worker, there, none⟩ := quiet
  exact ⟨worker, same.trans there, none⟩

variable (config observer load workers id count) in
/-- The workers after one more step of one of them. -/
def stepped : Array (Worker ε σ) :=
  workers.setIfInBounds id (trail config.idleWindow (observer id) (load id) id (count + 1))

theorem Stands.stepped (stands : Stands config observer load workers id count) :
    Stands config observer load (stepped config observer load workers id count) id (count + 1) :=
  Array.getElem?_setIfInBounds_self_of_lt (Array.getElem?_eq_some_iff.1 stands).1

section Stepped

variable (stands : Stands config observer load workers id count) (early : count < 2)
include stands early

theorem Underway.stepped (underway : Underway config observer load workers other) :
    Underway config observer load (stepped config observer load workers id count) other := by
  by_cases same : other = id
  · subst same
    exact ⟨count + 1, early, stands.stepped⟩
  · exact underway.congr (Array.getElem?_setIfInBounds_ne (Ne.symm same))

/-- A worker that has nothing to do is another one. -/
theorem Quiet.ne (quiet : Quiet workers other) : other ≠ id := by
  rintro rfl
  exact stands.not_quiet early quiet

theorem Quiet.stepped (quiet : Quiet workers other) :
    Quiet (stepped config observer load workers id count) other :=
  quiet.congr (Array.getElem?_setIfInBounds_ne (quiet.ne stands early).symm)

theorem Heard.stepped (heard : Heard config observer load workers other) :
    Heard config observer load (stepped config observer load workers id count) other :=
  heard.congr (Array.getElem?_setIfInBounds_ne (heard.quiet.ne stands early).symm)

theorem Sound.stepped {phase : Phase} (sound : Sound config observer load ⟨workers, phase⟩) :
    Sound config observer load ⟨stepped config observer load workers id count, phase⟩ := by
  have size : (Spawning.stepped config observer load workers id count).size = workers.size :=
    Array.size_setIfInBounds
  cases sound with
  | launching all fits underway =>
    exact .launching all (size.trans fits) fun other below =>
      (underway other below).stepped stands early
  | awaiting all fits heard underway =>
    exact .awaiting all (size.trans fits)
      (fun other below => (heard other below).stepped stands early)
      fun other above below => (underway other above below).stepped stands early
  | leaving all fits first quiet underway =>
    exact .leaving all (size.trans fits) first
      (fun other below => (quiet other below).stepped stands early)
      fun other above below => (underway other above below).imp
        (·.stepped stands early) (·.stepped stands early)
  | ready fits heard =>
    exact .ready (size.trans fits) fun other below => (heard other below).stepped stands early
  | failed fits first quiet =>
    exact .failed (size.trans fits) first fun other below =>
      (quiet other below).stepped stands early

/-- A worker that is loading its engine comes closer to the end of that. -/
theorem left_stepped (phase : Phase) {size : Nat} (inside : id < size) :
    left size ⟨stepped config observer load workers id count, phase⟩ <
      left size ⟨workers, phase⟩ := by
  have own : threadLeft (Spawning.stepped config observer load workers id count) id <
      threadLeft workers id := by
    rw [stands.stepped.threadLeft (by omega), stands.threadLeft (by omega)]
    omega
  refine Nat.add_lt_add_left (Finset.sum_lt_sum (fun other _ => ?_)
    ⟨id, Finset.mem_range.2 inside, own⟩) _
  by_cases same : other = id
  · exact same ▸ own.le
  · exact Nat.le_of_eq (by
      rw [threadLeft, Spawning.stepped, Array.getElem?_setIfInBounds_ne (Ne.symm same), threadLeft])

end Stepped

/-- A worker of a pool on its way is loading its engine or has nothing to do. -/
theorem Sound.present {spawning : Spawning ε σ} (sound : Sound config observer load spawning)
    (inside : id < spawning.workers.size) :
    (∃ count < 2, Stands config observer load spawning.workers id count) ∨
      Quiet spawning.workers id := by
  cases sound with
  | launching all fits underway =>
    exact (underway id (fits ▸ inside)).early_or_quiet
  | @awaiting _ done _ all fits heard underway =>
    by_cases below : id < done
    · exact .inr (heard id below).quiet
    · exact (underway id (Nat.not_lt.1 below) (fits ▸ inside)).early_or_quiet
  | @leaving _ _ done _ all fits first quiet underway =>
    by_cases below : id < done
    · exact .inr (quiet id below)
    · exact (underway id (Nat.not_lt.1 below) (fits ▸ inside)).elim (·.early_or_quiet) .inr
  | ready fits heard => exact .inr (heard id (fits ▸ inside)).quiet
  | failed fits first quiet => exact .inr (quiet id (fits ▸ inside))

theorem Sound.size_le {spawning : Spawning ε σ} (sound : Sound config observer load spawning) :
    spawning.workers.size ≤ config.size := by
  cases sound with
  | launching all fits underway => exact fits.le.trans (Nat.le.intro all)
  | awaiting _ fits | leaving _ fits | ready fits | failed fits => exact fits.le

/-- The thread of a worker takes the steps that load its engine, and no other. -/
theorem work_of_stands {spawning : Spawning ε σ}
    (stands : Stands config observer load spawning.workers id count) (early : count < 2)
    (now : Nat) :
    spawning.work id now =
      { spawning with workers := stepped config observer load spawning.workers id count } := by
  obtain ⟨effects, steps⟩ :=
    step?_trail (σ := σ) config.idleWindow (observer id) (load id) id now early
  rw [work, stands, Option.bind_some, steps]
  rfl

theorem work_of_quiet {spawning : Spawning ε σ} (quiet : Quiet spawning.workers id) (now : Nat) :
    spawning.work id now = spawning := by
  obtain ⟨worker, there, none⟩ := quiet
  rw [work, there, Option.bind_some, none now]

/-- A step of a worker changes nothing, or there is less left to do. -/
theorem Sound.work {spawning : Spawning ε σ} (sound : Sound config observer load spawning)
    (id now : Nat) :
    Sound config observer load (spawning.work id now) ∧
      (spawning.work id now = spawning ∨
        left config.size (spawning.work id now) < left config.size spawning) := by
  by_cases inside : id < spawning.workers.size
  · obtain ⟨count, early, stands⟩ | quiet := sound.present inside
    · rw [work_of_stands stands early]
      exact ⟨sound.stepped stands early,
        .inr (left_stepped stands early _ (Nat.lt_of_lt_of_le inside sound.size_le))⟩
    · rw [work_of_quiet quiet]
      exact ⟨sound, .inl rfl⟩
  · rw [Spawning.work, Array.getElem?_eq_none (Nat.not_lt.1 inside), Option.bind_none]
    exact ⟨sound, .inl rfl⟩

/-! ## Steps of the thread that starts the pool -/

variable (config observer load) in
/-- What a step comes to of the thread that starts the pool. -/
inductive Moves (spawning : Spawning ε σ) : Spawning ε σ → Prop
  | returned {result : Except Failure Unit} (phase : spawning.phase = .returned result) :
      Moves spawning spawning
  | waits {id count : Nat} (inside : id < config.size) (early : count < 2)
      (stands : Stands config observer load spawning.workers id count) : Moves spawning spawning
  | advances {next : Spawning ε σ} (sound : Sound config observer load next)
      (phase : phaseLeft config.size next.phase < phaseLeft config.size spawning.phase)
      (threads : ∀ id, threadLeft next.workers id ≤ threadLeft spawning.workers id) :
      Moves spawning next

omit [Scene σ] [Evaluator ε σ] in
/-- A worker that is replaced by one with nothing to do has no more steps to take. -/
theorem threadLeft_set_le {next : Worker ε σ} (rests : stepsLeft next.thread = 0)
    (inside : id < workers.size) (other : Nat) :
    threadLeft (workers.setIfInBounds id next) other ≤ threadLeft workers other := by
  by_cases same : other = id
  · subst same
    rw [threadLeft, Array.getElem?_setIfInBounds_self_of_lt inside]
    exact rests.le.trans (Nat.zero_le _)
  · rw [threadLeft, Array.getElem?_setIfInBounds_ne (Ne.symm same), threadLeft]

section Main

variable {done rest : Nat} (all : done + (rest + 1) = config.size)
include all

/-- A worker that is launched is at the start of its way. -/
theorem moves_launch (size : workers.size = done)
    (underway : ∀ id < done, Underway config observer load workers id) {spawning : Spawning ε σ}
    (there : spawning = ⟨workers, .launching (List.range' done (rest + 1))
      ((List.range done).map fun id => (id, 0))⟩) :
    Moves config observer load spawning (spawning.advance config observer load) := by
  subst there
  have tickets : (List.range done).map (fun id => (id, 0)) ++ [(done, 0)] =
      (List.range (done + 1)).map fun id => (id, 0) := by
    rw [List.range_succ, List.map_append, List.map_singleton]
  rw [List.range'_succ, advance_launch, tickets]
  refine .advances (.launching (by omega) (by rw [Array.size_push, size]) ?_) ?_ ?_
  · intro id below
    by_cases last : id = done
    · exact ⟨0, Nat.zero_le 2, by rw [Stands, last, ← size, Array.getElem?_push_size]⟩
    · refine (underway id (by omega)).congr ?_
      rw [Array.getElem?_push, if_neg (by omega)]
  · simp [phaseLeft, List.length_range']
  · intro id
    rw [threadLeft, Array.getElem?_push]
    split
    · next last =>
      rw [threadLeft, Array.getElem?_eq_none last.ge, Option.map_some, Option.getD_some,
        stepsLeft_trail _ _ _ _ (Nat.zero_le 2)]
      exact le_rfl
    · rw [threadLeft]

/-- The news of the next load is open, or tells that the engine is there, or is the first failure. -/
theorem moves_await (size : workers.size = config.size)
    (heard : ∀ id < done, Heard config observer load workers id)
    (underway : ∀ id, done ≤ id → id < config.size → Underway config observer load workers id)
    {spawning : Spawning ε σ} (there : spawning =
      ⟨workers, .awaiting ((List.range' done (rest + 1)).map fun id => (id, 0))⟩) :
    Moves config observer load spawning (spawning.advance config observer load) := by
  have inside : done < config.size := by omega
  rw [List.range'_succ, List.map_cons] at there
  subst there
  obtain ⟨count, early, stands⟩ | stands := (underway done le_rfl inside).early_or_done
  · rw [advance_await_open]
    · exact .waits inside early stands
    · rw [stands, Option.bind_some, hear?_trail _ _ _ _ early]
  obtain ⟨reply, news, same⟩ :=
    hear?_trail_two (σ := σ) config.idleWindow (observer done) (load done) done
  have news : workers[done]?.bind (hear? 0) = some (reply, told config observer load done) := by
    rw [stands, Option.bind_some, news, told]
  have there : done < workers.size := size ▸ inside
  have fits : (workers.setIfInBounds done (told config observer load done)).size = config.size :=
    Array.size_setIfInBounds.trans size
  have own : (workers.setIfInBounds done (told config observer load done))[done]? =
      some (told config observer load done) := Array.getElem?_setIfInBounds_self_of_lt there
  have others : ∀ id, id ≠ done →
      (workers.setIfInBounds done (told config observer load done))[id]? = workers[id]? :=
    fun id other => Array.getElem?_setIfInBounds_ne (Ne.symm other)
  have threads : ∀ id, threadLeft (workers.setIfInBounds done (told config observer load done)) id ≤
      threadLeft workers id := threadLeft_set_le (stepsLeft_launched _ _ _ _ 0) there
  rw [advance_await _ _ _ _ _ _ _ news, same]
  cases failed : failureOf? done (load done) with
  | none =>
    refine .advances (.awaiting (by omega) fits (fun id below => ?_) fun id above below => ?_)
      (by simp [phaseLeft]) threads
    · by_cases last : id = done
      · rw [last]
        exact ⟨failed, own⟩
      · exact (heard id (by omega)).congr (others id last)
    · exact (underway id (by omega) below).congr (others id (by omega))
  | some failure =>
    -- all lower workers have been heard of, whatever the higher ones have come to meanwhile
    have first : FirstFailure config load failure :=
      ⟨done, inside, failed, fun lower below => (heard lower below).1⟩
    rw [size, List.range_eq_range']
    refine .advances (.leaving (Nat.zero_add _) fits first (fun id below => absurd below (by omega))
      fun id _ below => ?_) (by simp [phaseLeft]; omega) threads
    by_cases last : id = done
    · rw [last]
      exact .inr ⟨_, own, fun now => step?_launched _ _ _ _ 0 now⟩
    · by_cases before : id < done
      · exact .inr ((heard id before).quiet.congr (others id last))
      · exact .inl ((underway id (by omega) below).congr (others id last))

/-- The thread of the next worker has steps to take, or is found at its end. -/
theorem moves_leave {failure : Failure} (size : workers.size = config.size)
    (first : FirstFailure config load failure) (quiet : ∀ id < done, Quiet workers id)
    (underway : ∀ id, done ≤ id → id < config.size →
      Underway config observer load workers id ∨ Quiet workers id) {spawning : Spawning ε σ}
    (there : spawning = ⟨workers, .leaving failure (List.range' done (rest + 1))⟩) :
    Moves config observer load spawning (spawning.advance config observer load) := by
  have inside : done < config.size := by omega
  rw [List.range'_succ] at there
  subst there
  have settled : (∃ count < 2, Stands config observer load workers done count) ∨
      Quiet workers done := (underway done le_rfl inside).elim (·.early_or_quiet) .inr
  obtain ⟨count, early, stands⟩ | ⟨worker, found, still⟩ := settled
  · rw [advance_leave_open]
    · exact .waits inside early stands
    · rw [stands, Option.bind_some, join?_trail _ _ _ _ early]
  · have ended : workers[done]?.bind join? = some worker.retire := by
      rw [found, Option.bind_some, join?_of_quiet still]
    have there : done < workers.size := size ▸ inside
    have own : (workers.setIfInBounds done worker.retire)[done]? = some worker.retire :=
      Array.getElem?_setIfInBounds_self_of_lt there
    have others : ∀ id, id ≠ done →
        (workers.setIfInBounds done worker.retire)[id]? = workers[id]? :=
      fun id other => Array.getElem?_setIfInBounds_ne (Ne.symm other)
    rw [advance_leave _ _ _ _ _ _ _ ended]
    refine .advances (.leaving (by omega) (Array.size_setIfInBounds.trans size) first
      (fun id below => ?_) fun id above below => ?_) (by simp [phaseLeft])
      (threadLeft_set_le rfl there)
    · by_cases last : id = done
      · rw [last]
        exact ⟨_, own, fun _ => rfl⟩
      · exact (quiet id (by omega)).congr (others id last)
    · exact (underway id (by omega) below).imp (·.congr (others id (by omega)))
        (·.congr (others id (by omega)))

end Main

theorem Sound.moves {spawning : Spawning ε σ} (sound : Sound config observer load spawning) :
    Moves config observer load spawning (spawning.advance config observer load) := by
  cases sound with
  | @launching workers done rest all size underway =>
    cases rest with
    | succ rest => exact moves_launch all size underway rfl
    | zero =>
      obtain rfl : done = config.size := all
      rw [List.range'_zero, advance_launched, List.range_eq_range']
      exact .advances (.awaiting (Nat.zero_add _) size (fun id below => absurd below (by omega))
        fun id _ below => underway id below) (by simp [phaseLeft]; omega) fun _ => le_rfl
  | @awaiting workers done rest all size heard underway =>
    cases rest with
    | succ rest => exact moves_await all size heard underway rfl
    | zero =>
      have whole : done = config.size := all
      rw [List.range'_zero, List.map_nil, advance_awaited]
      exact .advances (.ready size (whole ▸ heard)) (by simp [phaseLeft]) fun _ => le_rfl
  | @leaving workers failure done rest all size first quiet underway =>
    cases rest with
    | succ rest => exact moves_leave all size first quiet underway rfl
    | zero =>
      have whole : done = config.size := all
      rw [List.range'_zero, advance_left]
      exact .advances (.failed size first (whole ▸ quiet)) (by simp [phaseLeft]) fun _ => le_rfl
  | ready size heard => exact .returned rfl
  | failed size first quiet => exact .returned rfl

theorem Moves.sound {spawning next : Spawning ε σ}
    (moves : Moves config observer load spawning next)
    (sound : Sound config observer load spawning) : Sound config observer load next := by
  cases moves with
  | returned | waits => exact sound
  | advances sound => exact sound

/-- A step that is not a wait leaves less to do. -/
theorem Moves.left_lt {spawning next : Spawning ε σ}
    (moves : Moves config observer load spawning next) :
    next = spawning ∨ left config.size next < left config.size spawning := by
  cases moves with
  | returned | waits => exact .inl rfl
  | advances sound phase threads =>
    exact .inr (Nat.add_lt_add_of_lt_of_le phase (Finset.sum_le_sum fun id _ => threads id))

theorem Sound.step {spawning : Spawning ε σ} (sound : Sound config observer load spawning)
    (turn : Turn) :
    Sound config observer load (spawning.step config observer load turn) ∧
      (spawning.step config observer load turn = spawning ∨
        left config.size (spawning.step config observer load turn) <
          left config.size spawning) := by
  cases turn with
  | work id now => exact sound.work id now
  | main => exact ⟨sound.moves.sound sound, sound.moves.left_lt⟩

end Steps

end Spawning

end RenderFarm.Pool
