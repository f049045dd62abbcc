import RenderFarm.Pool
import RenderFarm.Proofs.Worker.Service

/-!
# Pools whose engines load

A worker whose engine loads has rested by the time its pool is there, so a pool of such workers
starts, and all of them hold the same engine and no scene (`spawn_engine`).
-/

namespace RenderFarm.Pool

variable {ε σ : Type} [Scene σ] [Evaluator ε σ]

theorem launched_engine (now window : Nat) (observer : Option String) (engine : ε) (id : Nat) :
    (launched now window observer (.engine engine) id : Launched ε σ).failure = none ∧
      (launched now window observer (.engine engine) id : Launched ε σ).worker.Rests engine
        none := by
  have silent : ∀ worker : Worker ε σ, worker.outbox = [] →
      ∀ entry ∈ worker.outbox, entry.1 < worker.issued := by
    intro worker empty entry member
    rw [empty] at member
    cases member
  cases observer with
  | none => exact ⟨rfl, rfl, rfl, silent _ rfl⟩
  | some listener => exact ⟨rfl, rfl, rfl, silent _ rfl⟩

/-- A pool starts when all engines load, and all workers then rest with theirs. -/
theorem spawn_engine (now : Nat) (config : Pool.Config) (observer : Nat → Option String)
    (engine : ε) :
    ∃ (workers : Array (Worker ε σ)) (effects : List Effect),
      spawn now config observer (fun _ => .engine engine) = .ok (workers, effects) ∧
      workers.size = config.size ∧
      ∀ (id : Nat) worker, workers[id]? = some worker → worker.Rests engine none := by
  have loaded : ((List.range config.size).map fun id =>
      (launched now config.idleWindow (observer id) (.engine engine) id : Launched ε σ)).findSome?
        (·.failure) = none := by
    rw [List.findSome?_eq_none_iff]
    intro launched member
    obtain ⟨id, -, rfl⟩ := List.mem_map.1 member
    exact (launched_engine now config.idleWindow (observer id) engine id).1
  refine ⟨_, _, by simp only [spawn, loaded]; rfl, by simp, ?_⟩
  intro id worker there
  simp only [List.map_map, List.getElem?_toArray, List.getElem?_map, Option.map_eq_some_iff] at there
  obtain ⟨number, -, rfl⟩ := there
  exact (launched_engine now config.idleWindow (observer number) engine number).2

end RenderFarm.Pool
