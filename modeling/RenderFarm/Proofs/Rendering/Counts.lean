import RenderFarm.Proofs.Rendering.Claims

/-!
# What drivers count and what they lose

Three more invariants of a render under way, kept by every access: the drivers have counted the lines
published (`Counted`), a driver that has lost a row has stopped, so that it loses no other
(`Forsaken`), and the report does not begin before all drivers have stopped (`Closed`).
-/

namespace RenderFarm

/-- What a driver counts anew is counted in all. -/
theorem RowDriver.sum_published_set {drivers : List RowDriver} {id : Nat} {driver : RowDriver}
    (found : drivers[id]? = some driver) (next : RowDriver) :
    ((drivers.set id next).map RowDriver.published).sum + driver.published =
      (drivers.map RowDriver.published).sum + next.published := by
  induction drivers generalizing id with
  | nil => cases found
  | cons first rest ih =>
      cases id with
      | zero =>
          cases found
          simp only [List.set_cons_zero, List.map_cons, List.sum_cons]
          omega
      | succ id =>
          have later := ih found
          simp only [List.set_cons_succ, List.map_cons, List.sum_cons]
          omega

/-- A report adds up what the drivers have counted. -/
theorem RowDriver.foldl_published (drivers : List RowDriver) :
    drivers.foldl (fun total driver => total + driver.published) 0 =
      (drivers.map RowDriver.published).sum := by
  rw [List.sum_eq_foldl_nat, List.foldl_map]

namespace Occurrence

/-- The driver and the row, where a row was lost with its worker. -/
def loss? : Occurrence → Option (Nat × UInt32)
  | lost id row => some (id, row)
  | claimed .. | published .. | skipped .. => none

/-- The rows lost, each with its driver. -/
def losses (history : List Occurrence) : List (Nat × UInt32) :=
  history.filterMap loss?

@[simp] theorem lines_append (before after : List Occurrence) :
    lines (before ++ after) = lines before ++ lines after :=
  List.filterMap_append

@[simp] theorem losses_append (before after : List Occurrence) :
    losses (before ++ after) = losses before ++ losses after :=
  List.filterMap_append

theorem mem_losses {history : List Occurrence} {id : Nat} {row : UInt32} :
    (id, row) ∈ losses history ↔ .lost id row ∈ history := by
  simp only [losses, List.mem_filterMap]
  constructor
  · rintro ⟨occurrence, member, shown⟩
    cases occurrence <;> cases shown
    exact member
  · exact fun member => ⟨_, member, rfl⟩

/-- A row that is settled is published, lost, or skipped. -/
theorem length_settled (history : List Occurrence) (unskipped : ∀ id row, .skipped id row ∉ history) :
    (settled history).length = (lines history).length + (losses history).length := by
  induction history with
  | nil => rfl
  | cons occurrence rest ih =>
      have later := ih fun id row member => unskipped id row (.tail _ member)
      cases occurrence with
      | skipped id row => exact (unskipped id row (.head _)).elim
      | claimed id row => exact later
      | published id row colors =>
          simp only [settled, lines, losses, List.filterMap_cons, settled?, line?, loss?,
            List.length_cons] at later ⊢
          omega
      | lost id row =>
          simp only [settled, lines, losses, List.filterMap_cons, settled?, line?, loss?,
            List.length_cons] at later ⊢
          omega

end Occurrence

namespace Progress

open Occurrence

/-- What an access does to the drivers and to the rows: nothing, or one driver that had not stopped
takes a step, in which it may publish a row and count it, or lose a row and stop. -/
theorem Advance.drivers_cases {p q : Progress} (advance : Advance p q) :
    (q.drivers = p.drivers ∧ q.history = p.history) ∨
      ∃ id driver next occurrences, p.drivers[id]? = some driver ∧ driver.phase ≠ .stopped ∧
        q.drivers = p.drivers.set id next ∧ q.history = p.history ++ occurrences ∧
        next.published = driver.published + (lines occurrences).length ∧
        (losses occurrences = [] ∨ ∃ row, losses occurrences = [(id, row)] ∧
          next.phase = .stopped) := by
  cases advance with
  | take | record | raise | read | reread | count => exact .inl ⟨rfl, rfl⟩
  | test found phase | miss found phase | receive found phase =>
      exact .inr ⟨_, _, _, [], found, by simp [phase], rfl, (List.append_nil _).symm, rfl, .inl rfl⟩
  | claim found phase | skip found phase | publish found phase =>
      exact .inr ⟨_, _, _, [_], found, by simp [phase], rfl, rfl, rfl, .inl rfl⟩
  | lose found phase =>
      exact .inr ⟨_, _, _, [_], found, by simp [phase], rfl, rfl, rfl, .inr ⟨_, rfl, rfl⟩⟩

/-- The drivers have counted as many lines as were published. -/
def Counted (p : Progress) : Prop :=
  (p.drivers.map RowDriver.published).sum = (lines p.history).length

theorem Counted.start (size : Dimensions) (count : Nat) : Counted (.start size count) := by
  simp [Counted, Progress.start, RowDriver.start, lines]

theorem Counted.advance {p q : Progress} (advance : Advance p q) (counted : Counted p) :
    Counted q := by
  rcases advance.drivers_cases with
    ⟨drivers, history⟩ | ⟨id, driver, next, occurrences, found, -, drivers, history, published, -⟩
  · rwa [Counted, drivers, history]
  · have sums := RowDriver.sum_published_set found next
    rw [Counted] at counted ⊢
    rw [drivers, history, lines_append, List.length_append]
    omega

/-- A driver that has lost a row has stopped, and no driver has lost more than one. -/
structure Forsaken (p : Progress) : Prop where
  stopped : ∀ id row, .lost id row ∈ p.history →
    ∃ driver, p.drivers[id]? = some driver ∧ driver.phase = .stopped
  once : ((losses p.history).map Prod.fst).Nodup

theorem Forsaken.start (size : Dimensions) (count : Nat) : Forsaken (.start size count) :=
  ⟨fun _ _ none => (by cases none), .nil⟩

theorem Forsaken.advance {p q : Progress} (advance : Advance p q) (forsaken : Forsaken p) :
    Forsaken q := by
  rcases advance.drivers_cases with
    ⟨drivers, history⟩ | ⟨id, driver, next, occurrences, found, moving, drivers, history, -, lost⟩
  · exact ⟨by rw [drivers, history]; exact forsaken.stopped, by rw [history]; exact forsaken.once⟩
  obtain ⟨inside, -⟩ := List.getElem?_eq_some_iff.1 found
  -- The driver that steps has not stopped, so it has lost nothing before.
  have fresh : ∀ row, .lost id row ∉ p.history := by
    intro row member
    obtain ⟨same, there, halted⟩ := forsaken.stopped id row member
    obtain rfl := Option.some.inj (found.symm.trans there)
    exact moving halted
  refine ⟨fun other row member => ?_, ?_⟩
  · rw [history, List.mem_append] at member
    rw [drivers]
    rcases member with before | now
    · have different : id ≠ other := by
        rintro rfl
        exact fresh row before
      rw [List.getElem?_set_ne different]
      exact forsaken.stopped other row before
    · rw [← mem_losses] at now
      rcases lost with none | ⟨row', one, halted⟩
      · rw [none] at now
        cases now
      · rw [one, List.mem_singleton, Prod.mk.injEq] at now
        obtain ⟨rfl, rfl⟩ := now
        exact ⟨next, List.getElem?_set_self inside, halted⟩
  · rw [history, losses_append, List.map_append, List.nodup_append]
    refine ⟨forsaken.once, ?_, ?_⟩
    · rcases lost with none | ⟨row, one, -⟩ <;> simp [*]
    · intro one before other now
      obtain ⟨⟨one', row⟩, member, rfl⟩ := List.mem_map.1 before
      rcases lost with none | ⟨row', single, -⟩
      · simp [none] at now
      · rw [single, List.map_singleton, List.mem_singleton] at now
        subst now
        rintro rfl
        exact fresh row (mem_losses.1 member)

/-- Stopped drivers stay, and nothing happens to rows any more. -/
theorem Advance.of_stopped {p q : Progress} (advance : Advance p q)
    (stopped : p.drivers.all RowDriver.isStopped = true) :
    q.drivers = p.drivers ∧ q.history = p.history := by
  rcases advance.drivers_cases with same | ⟨id, driver, next, occurrences, found, moving, -⟩
  · exact same
  · have halted := List.all_eq_true.1 stopped driver (List.mem_of_getElem? found)
    exact (moving (by simpa [RowDriver.isStopped] using halted)).elim

/-- The report does not begin before all drivers have stopped. -/
def Closed (p : Progress) : Prop :=
  p.closing = .waiting ∨ p.drivers.all RowDriver.isStopped = true

theorem Closed.advance {p q : Progress} (advance : Advance p q) (closed : Closed p) :
    Closed q := by
  rcases closed with waiting | stopped
  · cases advance with
    | read _ stopped => exact .inr stopped
    | reread reading =>
        rw [waiting] at reading
        cases reading
    | count counting =>
        rw [waiting] at counting
        cases counting
    | test | claim | miss | receive | skip | lose | publish | take | record | raise =>
        exact .inl waiting
  · exact .inr ((advance.of_stopped stopped).1 ▸ stopped)

end Progress

end RenderFarm
