import RenderFarm.Farm.Evaluate
import RenderFarm.Proofs.Worker.Service

/-!
# Evaluating on workers that agree

When all workers rest with the same engine and the same scene, a source text comes to the same on
each of them, so that they agree again afterwards (`evaluate_agreed`). All are sent the text before
the first is waited for: `sendAll_agreed` is the first half, `receiveAll_asked` the second.
-/

namespace RenderFarm.Farm

variable {ε σ Audience : Type}

/-- All workers rest, with the same engine and the same scene. -/
def Agrees (farm : Farm ε σ Audience) (engine : ε) (scene : Option σ) : Prop :=
  ∀ (id : Nat) worker, farm.workers[id]? = some worker → worker.Rests engine scene

/-- Worker `entry.1` is to take up a request under the ticket `entry.2`. -/
def IsAsked (farm : Farm ε σ Audience) (engine : ε) (scene : Option σ) (request : Request)
    (entry : Nat × Nat) : Prop :=
  ∃ worker, farm.workers[entry.1]? = some worker ∧
    worker.Engaged (.ready engine scene) [(entry.2, request)] entry.2

theorem getElem?_setWorker_of_ne (farm : Farm ε σ Audience) {id other : Nat} (different : id ≠ other)
    (worker : Worker ε σ) : (farm.setWorker id worker).workers[other]? = farm.workers[other]? := by
  simp only [setWorker, Array.getElem?_setIfInBounds_ne different]

section Send

variable {engine : ε} {scene : Option σ}

/-- Workers that rest are all asked when they are sent a text, each under a ticket of its own. -/
theorem sendAll_agreed (source : String) {ids : List Nat} (once : ids.Nodup)
    {farm : Farm ε σ Audience}
    (rest : ∀ id ∈ ids, ∃ worker, farm.workers[id]? = some worker ∧ worker.Rests engine scene) :
    (sendAll source ids farm).1.map Prod.fst = ids ∧
      (∀ entry ∈ (sendAll source ids farm).1,
        (sendAll source ids farm).2.IsAsked engine scene (.evaluate source) entry) ∧
      (sendAll source ids farm).2.workers.size = farm.workers.size ∧
      ∀ id ∉ ids, (sendAll source ids farm).2.workers[id]? = farm.workers[id]? := by
  induction ids generalizing farm with
  | nil => exact ⟨rfl, by simp [sendAll], rfl, fun _ _ => rfl⟩
  | cons id ids ih =>
      obtain ⟨fresh, once⟩ := List.nodup_cons.1 once
      obtain ⟨worker, there, rests⟩ := rest id (.head _)
      have sent : farm.send id (.evaluate source) =
          (some (worker.send (.evaluate source)).1,
            farm.setWorker id (worker.send (.evaluate source)).2) := by
        simp only [send, there]
      have others : ∀ other ∈ ids, ∃ worker',
          (farm.setWorker id (worker.send (.evaluate source)).2).workers[other]? = some worker' ∧
            worker'.Rests engine scene := by
        intro other member
        have different : id ≠ other := fun same => fresh (same ▸ member)
        rw [getElem?_setWorker_of_ne farm different]
        exact rest other (.tail _ member)
      obtain ⟨tickets, asked, size, same⟩ := ih once others
      simp only [sendAll, sent]
      refine ⟨by simp [tickets], ?_, by simpa using size, ?_⟩
      · intro entry member
        rcases List.mem_cons.1 member with rfl | later
        · refine ⟨_, ?_, rests.send (.evaluate source)⟩
          rw [same id fresh]
          exact getElem?_setWorker there _
        · exact asked entry later
      · intro other outside
        rw [List.mem_cons, not_or] at outside
        rw [same other outside.2, getElem?_setWorker_of_ne farm (Ne.symm outside.1)]

theorem Keeps.sendAll {listeners : Listeners ε σ Audience} {P : Farm ε σ Audience → Prop}
    (keeps : Keeps listeners P) (source : String) (ids : List Nat) {farm : Farm ε σ Audience}
    (holds : P farm) : P (sendAll source ids farm).2 := by
  induction ids generalizing farm with
  | nil => exact holds
  | cons id ids ih =>
      have sent := keeps.send id (.evaluate source) holds
      unfold Farm.sendAll
      split <;> next found =>
        rw [found] at sent
        exact ih sent

end Send

variable [Scene σ] [Evaluator ε σ] {listeners : Listeners ε σ Audience} {engine engine' : ε}
  {scene scene' : Option σ} {source : String} {outcome : Outcome}

/-- The outcome of a worker that is to take up a text, and where it rests then. -/
theorem receiveOutcome_asked (spare : Unheard listeners fun farm => farm.workers)
    (answer : Worker.answer? engine scene (.evaluate source) =
      some (.outcome outcome, engine', scene'))
    {farm : Farm ε σ Audience} {entry : Nat × Nat}
    (asked : farm.IsAsked engine scene (.evaluate source) entry) :
    (farm.receiveOutcome listeners entry.1 entry.2).1 = .ok outcome ∧
      ∃ last, (farm.receiveOutcome listeners entry.1 entry.2).2.workers =
          farm.workers.setIfInBounds entry.1 last ∧ last.Rests engine' scene' := by
  obtain ⟨worker, there, engaged⟩ := asked
  obtain ⟨last, workers, result⟩ :=
    await_asked spare there engaged (fun same => by cases same) 2
  rw [answer] at result
  have received : farm.receive listeners entry.1 entry.2 =
      await listeners entry.1 entry.2 5 farm := by
    simp only [receive, there, Option.map_some, Option.getD_some, Worker.work, engaged.inbox]
    rfl
  cases got : await listeners entry.1 entry.2 5 farm with
  | mk reply after =>
      rw [got] at workers result
      obtain ⟨rfl, rests⟩ := result
      simp only [receiveOutcome, received, got]
      exact ⟨trivial, last, workers, rests⟩

theorem Keeps.receiveOutcome {P : Farm ε σ Audience → Prop} (keeps : Keeps listeners P)
    (id ticket : Nat) {farm : Farm ε σ Audience} (holds : P farm) :
    P (farm.receiveOutcome listeners id ticket).2 := by
  have received : P (farm.receive listeners id ticket).2 := keeps.await _ _ _ holds
  unfold Farm.receiveOutcome
  split <;> next found => rwa [found] at received

/-- The outcomes of workers that are to take up the same text. -/
theorem receiveAll_asked (spare : Unheard listeners fun farm => farm.workers)
    (answer : Worker.answer? engine scene (.evaluate source) =
      some (.outcome outcome, engine', scene'))
    {tickets : List (Nat × Nat)} (once : (tickets.map Prod.fst).Nodup) {farm : Farm ε σ Audience}
    (asked : ∀ entry ∈ tickets, farm.IsAsked engine scene (.evaluate source) entry) :
    (receiveAll listeners tickets farm).1 = tickets.map (fun _ => outcome) ∧
      (receiveAll listeners tickets farm).2.workers.size = farm.workers.size ∧
      (∀ id ∈ tickets.map Prod.fst, ∃ worker,
        (receiveAll listeners tickets farm).2.workers[id]? = some worker ∧
          worker.Rests engine' scene') ∧
      ∀ id ∉ tickets.map Prod.fst,
        (receiveAll listeners tickets farm).2.workers[id]? = farm.workers[id]? := by
  induction tickets generalizing farm with
  | nil => exact ⟨rfl, rfl, by simp, fun _ _ => rfl⟩
  | cons entry tickets ih =>
      obtain ⟨id, ticket⟩ := entry
      obtain ⟨fresh, once⟩ := List.nodup_cons.1 once
      obtain ⟨got, last, workers, rests⟩ :=
        receiveOutcome_asked spare answer (asked (id, ticket) (.head _))
      have elsewhere : ∀ other, id ≠ other →
          (farm.receiveOutcome listeners id ticket).2.workers[other]? = farm.workers[other]? := by
        intro other different
        rw [workers, Array.getElem?_setIfInBounds_ne different]
      obtain ⟨outcomes, size, ready, same⟩ := ih once fun entry member => by
        obtain ⟨worker, there, engaged⟩ := asked entry (.tail _ member)
        refine ⟨worker, (elsewhere _ fun equal => ?_).trans there, engaged⟩
        exact fresh (List.mem_map.2 ⟨entry, member, equal.symm⟩)
      simp only [receiveAll, got]
      refine ⟨by rw [outcomes]; rfl, by simpa [workers] using size, ?_, ?_⟩
      · intro other member
        rcases List.mem_cons.1 member with equal | later
        · obtain rfl : other = id := equal
          refine ⟨last, ?_, rests⟩
          obtain ⟨worker, there, -⟩ := asked (other, ticket) (.head _)
          obtain ⟨inside, -⟩ := Array.getElem?_eq_some_iff.1 there
          rw [same _ fresh, workers, Array.getElem?_setIfInBounds_self_of_lt inside]
        · exact ready other later
      · intro other outside
        rw [List.map_cons, List.mem_cons, not_or] at outside
        rw [same other outside.2, elsewhere other (Ne.symm outside.1)]

theorem Keeps.receiveAll {P : Farm ε σ Audience → Prop} (keeps : Keeps listeners P)
    (tickets : List (Nat × Nat)) {farm : Farm ε σ Audience} (holds : P farm) :
    P (receiveAll listeners tickets farm).2 := by
  induction tickets generalizing farm with
  | nil => exact holds
  | cons entry rest ih =>
      have received := ih (keeps.receiveOutcome entry.1 entry.2 holds)
      unfold Farm.receiveAll
      dsimp only
      split <;> exact received

theorem Keeps.evaluate {P : Farm ε σ Audience → Prop} (keeps : Keeps listeners P) (source : String)
    (told : ∀ farm message, P farm → P (farm.publish listeners (.evalError message)))
    {farm : Farm ε σ Audience} (holds : P farm) : P (farm.evaluate listeners source).2 := by
  have sent := keeps.sendAll source (List.range farm.workers.size) holds
  unfold Farm.evaluate
  split
  · next found => rwa [found] at sent
  · next id ticket rest sentFarm found =>
    rw [found] at sent
    have first := keeps.receiveOutcome id ticket sent
    split
    · next failed => rwa [failed] at first
    · next got =>
      rw [got] at first
      have all := keeps.receiveAll rest first
      dsimp only
      split
      · exact told _ _ all
      · exact all

/-- What is left of an evaluation when all outcomes are there: to tell a failure. -/
theorem evaluate_eq {farm : Farm ε σ Audience} {entry : Nat × Nat} {rest : List (Nat × Nat)}
    (tickets : (sendAll source (List.range farm.workers.size) farm).1 = entry :: rest)
    (got : ((sendAll source (List.range farm.workers.size) farm).2.receiveOutcome listeners
      entry.1 entry.2).1 = .ok outcome) :
    let all := receiveAll listeners (entry :: rest)
      (sendAll source (List.range farm.workers.size) farm).2
    farm.evaluate listeners source =
      match firstError all.1 with
      | some message => (.ok outcome, all.2.publish listeners (.evalError message))
      | none => (.ok outcome, all.2) := by
  intro all
  obtain ⟨id, ticket⟩ := entry
  cases sent : sendAll source (List.range farm.workers.size) farm with
  | mk first sentFarm =>
      rw [sent] at tickets got
      cases received : sentFarm.receiveOutcome listeners id ticket with
      | mk result receivedFarm =>
          rw [received] at got
          obtain rfl := tickets
          obtain rfl := got
          have split : all = (outcome :: (receiveAll listeners rest receivedFarm).1,
              (receiveAll listeners rest receivedFarm).2) := by
            simp only [all, sent, receiveAll, received]
          rw [split]
          split <;> next failed => simp only [evaluate, sent, received, failed]

/-- Workers that agree all make the same of a source text and agree again. -/
theorem evaluate_agreed (spare : Unheard listeners fun farm => farm.workers)
    (answer : Worker.answer? engine scene (.evaluate source) =
      some (.outcome outcome, engine', scene'))
    {farm : Farm ε σ Audience} (manned : 0 < farm.workers.size)
    (agrees : farm.Agrees engine scene) :
    (farm.evaluate listeners source).1 = .ok outcome ∧
      (farm.evaluate listeners source).2.workers.size = farm.workers.size ∧
      (farm.evaluate listeners source).2.Agrees engine' scene' := by
  have rest : ∀ id ∈ List.range farm.workers.size, ∃ worker,
      farm.workers[id]? = some worker ∧ worker.Rests engine scene := by
    intro id member
    have there := Array.getElem?_eq_getElem (List.mem_range.1 member)
    exact ⟨_, there, agrees id _ there⟩
  obtain ⟨tickets, asked, size, -⟩ := sendAll_agreed source List.nodup_range rest
  cases all : (sendAll source (List.range farm.workers.size) farm).1 with
  | nil =>
      rw [all, List.map_nil, eq_comm, List.range_eq_nil] at tickets
      omega
  | cons entry others =>
      rw [all] at tickets asked
      obtain ⟨-, size', ready, -⟩ :=
        receiveAll_asked spare answer (tickets ▸ List.nodup_range) asked
      rw [evaluate_eq all (receiveOutcome_asked spare answer (asked entry (.head _))).1]
      have agree : (receiveAll listeners (entry :: others)
          (sendAll source (List.range farm.workers.size) farm).2).2.Agrees engine' scene' := by
        intro id worker there
        obtain ⟨inside, -⟩ := Array.getElem?_eq_some_iff.1 there
        obtain ⟨worker', there', rests⟩ :=
          ready id (by rw [tickets, List.mem_range]; omega)
        cases there.symm.trans there'
        exact rests
      split
      · next message failed =>
        have same := spare.publish (.evalError message) (receiveAll listeners (entry :: others)
          (sendAll source (List.range farm.workers.size) farm).2).2
        refine ⟨rfl, ?_, ?_⟩
        · exact (congrArg Array.size same).trans (size'.trans size)
        · intro id worker there
          rw [same] at there
          exact agree id worker there
      · exact ⟨rfl, size'.trans size, agree⟩

end RenderFarm.Farm
