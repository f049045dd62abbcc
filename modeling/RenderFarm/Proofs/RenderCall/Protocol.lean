import RenderFarm.Proofs.RenderCall.Cancellation
import RenderFarm.Proofs.Rendering.Hearing

/-!
# The events of a render, as a subscription hears them

Drivers publish side by side, and the thread that renders counts the lines only from what the drivers
have counted themselves. `Records` follows one subscription: the lines that it has heard of are those
on record and those with which a driver has come past it and is not done. `Relays` adds what the
subscription makes of the events that it takes in, whatever that is. Since no row is published
twice, and none is under way when all drivers have stopped, the subscription takes in each row on
record once, between one event that announces the scene and one that ends it (`returned_relays`). What
one that keeps a record hears is the case of that in which it puts the events on a list
(`heard_of_render`).
-/

namespace RenderFarm

open Occurrence RenderFarm.Language

namespace RenderCall

variable {ε σ Audience : Type}

/-- A driver has told a subscription of a row, and is still publishing it. -/
def TellsRow (call : RenderCall ε σ Audience) (subscription : Subscription) (row : UInt32) : Prop :=
  ∃ id telling, call.telling id = some telling ∧
    ∃ event ∈ telling.told subscription, event.row? = some row

/-- The lines that a subscription has heard of. -/
structure Records (subscription : Subscription) (lines : List (UInt32 × List UInt32))
    (call : RenderCall ε σ Audience) : Prop where
  serves : ∀ id telling, call.telling id = some telling → telling.Serves subscription
  once : (lines.map Prod.fst).Nodup
  rows : ∀ row, row ∈ lines.map Prod.fst ↔
    row ∈ Occurrence.lines call.rendering.history ∨ call.TellsRow subscription row

/-- What a subscription has heard, with these lines, when the thread that renders stands at a stage. -/
def Stage.Told (subscription : Subscription) (size : Dimensions)
    (lines : List (UInt32 × List UInt32)) (events : List Event) : Stage → Prop
  | .opening telling => telling.event = .sceneLoaded size ∧ telling.Serves subscription ∧
    lines = [] ∧ events = telling.told subscription
  | .driving => events = .sceneLoaded size :: lines.map (Event.ofLine size)
  | .ending _ telling => (∃ elapsed, telling.event = .sceneRendered elapsed) ∧
    telling.Serves subscription ∧
    events = .sceneLoaded size :: lines.map (Event.ofLine size) ++ telling.told subscription
  | .returned _ => ∃ elapsed,
    events = .sceneLoaded size :: lines.map (Event.ofLine size) ++ [.sceneRendered elapsed]

/-- A line is on record, or a driver is publishing it. -/
def Vouches (call : RenderCall ε σ Audience) (size : Dimensions) (line : UInt32 × List UInt32) :
    Prop :=
  (∃ id, .published id line.1 line.2 ∈ call.rendering.history) ∨
    ∃ id telling, call.telling id = some telling ∧ telling.event = .ofLine size line

/-- What a subscription has taken in of a call, beginning with `before`. -/
structure Relays {γ : Type} (subscription : Subscription) (take : γ → Event → γ)
    (view : Farm ε σ Audience → γ) (before : γ) (size : Dimensions)
    (lines : List (UInt32 × List UInt32)) (call : RenderCall ε σ Audience) : Prop
    extends Records subscription lines call where
  told : ∃ events, view call.farm = events.foldl take before ∧
    call.stage.Told subscription size lines events
  vouched : ∀ line ∈ lines, call.Vouches size line

/-- What another thread does is not seen. -/
def Move.Unseen {γ : Type} (view : Farm ε σ Audience → γ) : Move ε σ Audience → Prop
  | .meanwhile change => ∀ farm, view (change farm) = view farm
  | .drive _ | .cancel | .close => True

section Step

variable {γ : Type} {subscription : Subscription} {take : γ → Event → γ}
  {view : Farm ε σ Audience → γ} {before : γ} {size : Dimensions}
  {lines : List (UInt32 × List UInt32)} {call : RenderCall ε σ Audience} {p : Progress}

/-- A driver that is publishing has the row in hand, and the thread that renders waits. -/
theorem Runs.of_telling (runs : call.Runs size p) {id : Nat} {telling : Broadcast}
    (told : call.telling id = some telling) :
    call.stage = .driving ∧
      ∃ line driver, telling.event = .ofLine size line ∧ p.drivers[id]? = some driver ∧
        driver.phase = .publish line.1 line.2 := by
  obtain ⟨driver, row, colors, found, phase, event⟩ :=
    Progress.exists_of_line? (runs.told id telling told)
  rw [runs.sound.sized] at event
  refine ⟨?_, (row, colors), driver, event, found, phase⟩
  have untold : ∀ summary ∈ call.stage.summary?, False := by
    intro summary made
    rw [runs.telling_of_stopped (runs.stopped made) id] at told
    cases told
  cases stage : call.stage with
  | opening opening =>
      have idle := (runs.idle opening stage).1
      simp [idle] at found
  | driving => rfl
  | ending summary ending | returned summary => exact (untold summary (by rw [stage]; rfl)).elim

theorem tellsRow_tell {id : Nat} {next : Option Broadcast} {row : UInt32} :
    (call.tell id next).TellsRow subscription row ↔
      (∃ telling ∈ next, ∃ event ∈ telling.told subscription, event.row? = some row) ∨
        ∃ other telling, other ≠ id ∧ call.telling other = some telling ∧
          ∃ event ∈ telling.told subscription, event.row? = some row := by
  simp only [TellsRow, tell, Function.update_apply]
  constructor
  · rintro ⟨other, telling, there, event, told, shown⟩
    split at there
    · exact .inl ⟨telling, there, event, told, shown⟩
    · next different => exact .inr ⟨other, telling, different, there, event, told, shown⟩
  · rintro (⟨telling, there, told⟩ | ⟨other, telling, different, there, told⟩)
    · exact ⟨id, telling, by simpa using there, told⟩
    · exact ⟨other, telling, by simpa [different] using there, told⟩

/-- The rows told are those that one driver tells and those that the others tell. -/
theorem tellsRow_iff (id : Nat) {row : UInt32} :
    call.TellsRow subscription row ↔
      (∃ telling ∈ call.telling id, ∃ event ∈ telling.told subscription, event.row? = some row) ∨
        ∃ other telling, other ≠ id ∧ call.telling other = some telling ∧
          ∃ event ∈ telling.told subscription, event.row? = some row := by
  rw [← tellsRow_tell, tell, Function.update_eq_self]

/-- A publication that tells more. -/
theorem tellsRow_of_more {id : Nat} {telling next : Broadcast} {more : List Event}
    (told : call.telling id = some telling)
    (further : next.told subscription = telling.told subscription ++ more) {row : UInt32} :
    (call.tell id (some next)).TellsRow subscription row ↔
      call.TellsRow subscription row ∨ ∃ event ∈ more, event.row? = some row := by
  rw [tellsRow_tell, tellsRow_iff id, told]
  simp only [Option.mem_some_iff, exists_eq_left', further, List.mem_append, or_and_right, exists_or]
  exact or_right_comm

/-- A row that is not told yet by the driver that has it in hand has not been heard of. -/
theorem Records.fresh (records : Records subscription lines call) (runs : call.Runs size p)
    {id : Nat} {telling : Broadcast} (told : call.telling id = some telling)
    (silent : telling.told subscription = []) {line : UInt32 × List UInt32}
    (held : line.1 ∈ p.held id) : line.1 ∉ lines.map Prod.fst := by
  rw [records.rows, tellsRow_iff id, told]
  rintro (published | ⟨_, same, event, now, -⟩ | ⟨other, another, different, there, told'⟩)
  · rw [runs.shows.history] at published
    exact runs.sound.regular.unpublished_of_held held published
  · cases same
    rw [silent] at now
    cases now
  · obtain ⟨event, now, shown⟩ := told'
    obtain ⟨-, line', driver, same, found, phase⟩ := runs.of_telling there
    have shown' : event = .ofLine size line' := by
      unfold Broadcast.told at now
      split at now
      · rw [List.mem_singleton.1 now, same]
      · cases now
    subst shown'
    have row : line'.1 = line.1 := Option.some.inj shown
    have own : line.1 ∈ p.held other := by
      simp [Progress.held, found, phase, Progress.inHand, row]
    exact different (runs.sound.regular.eq_of_held own held)

/-- What a driver that is publishing tells the subscription next. -/
theorem Records.tell (records : Records subscription lines call) (runs : call.Runs size p)
    {id : Nat} {telling next : Broadcast} (told : call.telling id = some telling)
    (same : next.event = telling.event) (serves : next.Serves subscription) {more : List Event}
    (further : next.told subscription = telling.told subscription ++ more) :
    ∃ news, more = news.map (Event.ofLine size) ∧
      (∀ line ∈ news, next.event = .ofLine size line) ∧
      Records subscription (lines ++ news) (call.tell id (some next)) := by
  have served : ∀ other another, (call.tell id (some next)).telling other = some another →
      another.Serves subscription := by
    intro other another there
    simp only [RenderCall.tell, Function.update_apply] at there
    split at there
    · cases there
      exact serves
    · exact records.serves other another there
  have rows : ∀ row, (call.tell id (some next)).TellsRow subscription row ↔ _ :=
    fun row => tellsRow_of_more told further
  rcases Broadcast.told_append further same with rfl | ⟨silent, rfl⟩
  · refine ⟨[], rfl, List.forall_mem_nil _, served, by simpa using records.once, fun row => ?_⟩
    rw [rows, List.append_nil, records.rows]
    simp [RenderCall.tell]
  · obtain ⟨-, line, driver, event, found, phase⟩ := runs.of_telling told
    have held : line.1 ∈ p.held id := by
      simp [Progress.held, found, phase, Progress.inHand]
    refine ⟨[line], by rw [event]; rfl, fun _ member => ?_, served, ?_, fun row => ?_⟩
    · rw [List.mem_singleton.1 member, same, event]
    · rw [List.map_append, List.nodup_append]
      refine ⟨records.once, List.nodup_singleton _, ?_⟩
      intro row before other now
      rw [List.map_singleton, List.mem_singleton] at now
      rintro rfl
      exact records.fresh runs told silent held (now ▸ before)
    · rw [rows, List.map_append, List.mem_append, records.rows, event]
      simp [RenderCall.tell, Event.ofLine, Event.row?, or_assoc, eq_comm]

/-- A driver that is done with publishing has told the subscription. -/
theorem Records.conclude (records : Records subscription lines call) (runs : call.Runs size p)
    {id : Nat} {telling : Broadcast} (told : call.telling id = some telling)
    (all : telling.told subscription = [telling.event]) :
    Records subscription lines
      { call.tell id none with rendering := call.rendering.conclude id } := by
  obtain ⟨-, line, driver, event, found, phase⟩ := runs.of_telling told
  have history : (call.rendering.conclude id).history =
      call.rendering.history ++ [.published id line.1 line.2] := by
    rw [(runs.shows.conclude found phase).history, runs.shows.history]
    rfl
  refine ⟨fun other another there => ?_, records.once, fun row => ?_⟩
  · simp only [RenderCall.tell, Function.update_apply] at there
    split at there
    · cases there
    · exact records.serves other another there
  · have others : TellsRow { call.tell id none with rendering := call.rendering.conclude id }
        subscription row ↔ _ := tellsRow_tell
    rw [others, records.rows, tellsRow_iff id, told, history, lines_append, List.mem_append]
    simp [all, event, Event.ofLine, Event.row?, Occurrence.lines, line?, or_assoc, eq_comm]

/-- A publication that begins has told nothing. -/
theorem Records.begin (records : Records subscription lines call) {id : Nat}
    (idle : call.telling id = none) {telling : Broadcast} (serves : telling.Serves subscription)
    (silent : telling.told subscription = []) :
    Records subscription lines (call.tell id (some telling)) := by
  refine ⟨fun other another there => ?_, records.once, fun row => ?_⟩
  · simp only [RenderCall.tell, Function.update_apply] at there
    split at there
    · cases there
      exact serves
    · exact records.serves other another there
  · rw [tellsRow_tell, records.rows, tellsRow_iff id, idle]
    simp [silent, RenderCall.tell]

/-! ## Lines that are vouched for -/

theorem Vouches.mono {line : UInt32 × List UInt32} (vouches : call.Vouches size line)
    {next : RenderCall ε σ Audience} (history : call.rendering.history ⊆ next.rendering.history)
    (telling : ∀ id telling, call.telling id = some telling →
      telling.event = .ofLine size line → next.Vouches size line) : next.Vouches size line := by
  rcases vouches with ⟨id, published⟩ | ⟨id, broadcast, told, event⟩
  · exact .inl ⟨id, history published⟩
  · exact telling id broadcast told event

/-- Nothing that a driver may tell next takes a voucher away. -/
theorem Vouches.tell {line : UInt32 × List UInt32} (vouches : call.Vouches size line) {id : Nat}
    {next : Broadcast} (same : ∀ telling ∈ call.telling id, next.event = telling.event) :
    (call.tell id (some next)).Vouches size line := by
  refine vouches.mono (List.Subset.refl _) fun other telling told event => .inr ?_
  by_cases own : other = id
  · subst own
    exact ⟨other, next, by simp [RenderCall.tell], (same telling told).trans event⟩
  · exact ⟨other, telling, by simpa [RenderCall.tell, own] using told, event⟩

/-- A driver that is done with publishing has put its line on record. -/
theorem Vouches.conclude (runs : call.Runs size p) {line : UInt32 × List UInt32}
    (vouches : call.Vouches size line) {id : Nat} {telling : Broadcast}
    (told : call.telling id = some telling) (farm : Farm ε σ Audience) :
    Vouches { call.tell id none with rendering := { call.rendering.conclude id with farm := farm } }
      size line := by
  obtain ⟨-, published, driver, event, found, phase⟩ := runs.of_telling told
  have history : (call.rendering.conclude id).history =
      call.rendering.history ++ [.published id published.1 published.2] := by
    rw [(runs.shows.conclude found phase).history, runs.shows.history]
    rfl
  refine vouches.mono ?_ fun other another told' event' => ?_
  · rw [history]
    exact List.subset_append_left _ _
  · by_cases own : other = id
    · subst own
      obtain rfl : another = telling := Option.some.inj (told'.symm.trans told)
      have same : Event.ofLine size published = .ofLine size line := event.symm.trans event'
      simp only [Event.ofLine, Event.lineComputed.injEq, true_and] at same
      refine .inl ⟨other, ?_⟩
      rw [history, ← same.1, ← same.2]
      exact List.mem_append_right _ (.head _)
    · exact .inr ⟨other, another, by simpa [RenderCall.tell, own] using told', event'⟩

variable [Scene σ] [Evaluator ε σ] {listeners : Listeners ε σ Audience}
  (feeds : listeners.Feeds subscription Event.isOfRender take view)
include feeds

variable (lists : call.farm.bus.Lists subscription)
  (relays : Relays subscription take view before size lines call)
include lists relays

/-- A step of a driver. -/
theorem Relays.drive (wants : subscription.kinds.contains .render = true)
    (runs : call.Runs size p) (id : Nat) :
    ∃ lines, Relays subscription take view before size lines (call.drive listeners id) := by
  obtain ⟨events, known, told⟩ := relays.told
  cases telling : call.telling id with
  | none =>
      cases line : call.rendering.line? id with
      | none =>
          rw [runs.shows.line?] at line
          obtain ⟨same, more, history, undrawn⟩ := Rendering.drive_unseen feeds runs.shows
            fun driver found => Progress.ne_publish_of_line? line (runs.shows.drivers ▸ found)
          have published : Occurrence.lines (call.rendering.drive listeners id).history =
              Occurrence.lines call.rendering.history := by
            rw [history, lines_append, ← map_fst_drawn more, undrawn, List.map_nil, List.append_nil]
          simp only [RenderCall.drive, telling, runs.shows.line?, line]
          refine ⟨lines, ⟨relays.serves, relays.once, fun row => ?_⟩, ⟨events,
            same.trans known, told⟩, fun line member => ?_⟩
          · simp only [published]
            exact relays.rows row
          · refine (relays.vouched line member).mono ?_ fun id telling told event =>
              .inr ⟨id, telling, told, event⟩
            exact history ▸ List.subset_append_left _ _
      | some event =>
          rw [runs.shows.line?] at line
          obtain ⟨driver, row, colors, -, -, rfl⟩ := Progress.exists_of_line? line
          obtain ⟨serves, silent⟩ := Broadcast.serves_start lists
            (EventKinds.has_of_contains wants (Event.isOfRender_ofLine p.cursor.size (row, colors)))
          simp only [RenderCall.drive, telling, runs.shows.line?, line]
          exact ⟨lines, relays.toRecords.begin telling serves silent, ⟨events, known, told⟩,
            fun line member => (relays.vouched line member).tell (by simp [telling])⟩
  | some broadcast =>
      obtain ⟨driving, line, driver, event, -⟩ := runs.of_telling telling
      have ofRender : broadcast.event.isOfRender = true := by
        rw [event]
        exact Event.isOfRender_ofLine size line
      rw [driving] at told
      cases stepped : broadcast.step listeners.onEvent call.farm with
      | mk farm next =>
          have fed := feeds.broadcast ofRender (relays.serves id broadcast telling) lists stepped
          cases next with
          | none =>
              obtain ⟨same, all⟩ := fed
              have records := relays.toRecords.conclude runs telling all
              rw [drive_of_end listeners telling stepped]
              exact ⟨lines, ⟨records.serves, records.once, records.rows⟩, ⟨events, same.trans known,
                driving ▸ told⟩, fun line member =>
                  (relays.vouched line member).conclude runs telling farm⟩
          | some next =>
              obtain ⟨serves, more, same, further⟩ := fed
              have still := Broadcast.event_of_step _ stepped
              obtain ⟨news, rfl, fresh, records⟩ := relays.toRecords.tell runs telling still serves
                further
              rw [drive_of_hand listeners telling stepped]
              refine ⟨lines ++ news, ⟨records.serves, records.once, records.rows⟩,
                ⟨events ++ news.map (Event.ofLine size), ?_, ?_⟩, fun line member => ?_⟩
              · refine same.trans ?_
                rw [known, List.foldl_append]
              · have now : events = .sceneLoaded size :: lines.map (Event.ofLine size) := told
                simp only [setFarm, RenderCall.tell, driving, Stage.Told, now, List.map_append,
                  List.cons_append]
              · rcases List.mem_append.1 member with before | new
                · exact (relays.vouched line before).tell
                    (by rw [telling]; rintro _ ⟨⟩; exact still)
                · exact .inr ⟨id, next, by simp [RenderCall.tell], fresh line new⟩

/-- The thread that renders tells of the scene. -/
theorem Relays.opening {telling : Broadcast} (stage : call.stage = .opening telling) :
    Relays subscription take view before size lines (call.close listeners) := by
  obtain ⟨events, known, told⟩ := relays.told
  rw [stage] at told
  obtain ⟨event, serves, rfl, rfl⟩ := told
  have ofRender := event ▸ Event.isOfRender_sceneLoaded size
  cases stepped : telling.step listeners.onEvent call.farm with
  | mk farm next =>
      have further := feeds.recounts ofRender serves lists stepped known
      simp only [RenderCall.close, stage, stepped]
      cases next with
      | some next =>
          obtain ⟨same, still, told⟩ := further
          exact ⟨⟨relays.serves, relays.once, relays.rows⟩, ⟨_, told, same.trans event, still,
            rfl, rfl⟩, List.forall_mem_nil _⟩
      | none =>
          rw [event] at further
          exact ⟨⟨relays.serves, relays.once, relays.rows⟩, ⟨[.sceneLoaded size], further, rfl⟩,
            List.forall_mem_nil _⟩

/-- The thread that renders tells of the end. -/
theorem Relays.ending {summary : RenderSummary} {telling : Broadcast}
    (stage : call.stage = .ending summary telling) :
    Relays subscription take view before size lines (call.close listeners) := by
  obtain ⟨events, known, told⟩ := relays.told
  rw [stage] at told
  obtain ⟨⟨elapsed, event⟩, serves, rfl⟩ := told
  have ofRender := event ▸ Event.isOfRender_sceneRendered elapsed
  rw [List.foldl_append] at known
  cases stepped : telling.step listeners.onEvent call.farm with
  | mk farm next =>
      have further := feeds.recounts ofRender serves lists stepped known
      simp only [RenderCall.close, stage, stepped]
      cases next with
      | some next =>
          obtain ⟨same, still, told⟩ := further
          rw [← List.foldl_append] at told
          exact ⟨⟨relays.serves, relays.once, relays.rows⟩, ⟨_, told,
            ⟨elapsed, same.trans event⟩, still, rfl⟩, relays.vouched⟩
      | none =>
          rw [event] at further
          refine ⟨⟨relays.serves, relays.once, relays.rows⟩, ⟨_, ?_, elapsed, rfl⟩,
            relays.vouched⟩
          rw [List.foldl_append]
          exact further

/-- A step of the thread that renders. -/
theorem Relays.close (wants : subscription.kinds.contains .render = true) :
    Relays subscription take view before size lines (call.close listeners) := by
  cases stage : call.stage with
  | opening telling => exact Relays.opening feeds lists relays stage
  | ending summary telling => exact Relays.ending feeds lists relays stage
  | returned summary =>
      simp only [RenderCall.close, stage]
      exact relays
  | driving =>
      obtain ⟨events, known, told⟩ := relays.told
      rw [stage] at told
      cases report : call.rendering.report? with
      | none =>
          obtain ⟨closing, stepped⟩ := Rendering.step_close listeners call.rendering
          simp only [RenderCall.close, stage, report, stepped]
          exact ⟨⟨relays.serves, relays.once, relays.rows⟩, ⟨events, known, told⟩, relays.vouched⟩
      | some summary =>
          cases cancelling : call.rendering.cancelling with
          | some cancelling =>
              simp only [RenderCall.close, stage, report, cancelling]
              exact relays
          | none =>
              obtain ⟨active, ended⟩ := call.farm.endRender_eq call.rendering.number
              have wanted : subscription.kinds.has
                  (Event.sceneRendered ((call.farm.now - call.began) * Farm.tick)).kind = true :=
                EventKinds.has_of_contains wants (Event.isOfRender_sceneRendered _)
              obtain ⟨serves, silent⟩ := Broadcast.serves_start lists wanted
              simp only [RenderCall.close, stage, report, cancelling, withdraw, ended]
              refine ⟨⟨relays.serves, relays.once, relays.rows⟩, ⟨events,
                (feeds.same call.farm { call.farm with active := active } rfl rfl).trans known,
                ⟨_, rfl⟩, serves, ?_⟩, relays.vouched⟩
              rw [silent, List.append_nil]
              exact told

/-- A move of any thread. -/
theorem Relays.step (wants : subscription.kinds.contains .render = true)
    (runs : call.Runs size p) {move : Move ε σ Audience} (unseen : move.Unseen view) :
    ∃ lines, Relays subscription take view before size lines (call.step listeners move) := by
  cases move with
  | drive id => exact Relays.drive feeds lists relays wants runs id
  | close => exact ⟨lines, Relays.close feeds lists relays wants⟩
  | cancel =>
      unfold RenderCall.step
      dsimp only
      split
      · obtain ⟨events, known, told⟩ := relays.told
        have same := Rendering.cancel_unseen feeds call.rendering
        obtain ⟨farm, cancelling, stepped⟩ := Rendering.step_cancel listeners call.rendering
        rw [stepped] at same ⊢
        exact ⟨lines, ⟨relays.serves, relays.once, relays.rows⟩, ⟨events, same.trans known, told⟩,
          relays.vouched⟩
      · exact ⟨lines, relays⟩
  | meanwhile change =>
      obtain ⟨events, known, told⟩ := relays.told
      exact ⟨lines, ⟨relays.serves, relays.once, relays.rows⟩, ⟨events,
        (unseen call.farm).trans known, told⟩, relays.vouched⟩

end Step

section Relay

variable {γ : Type} {listeners : Listeners ε σ Audience} {subscription : Subscription}
  {take : γ → Event → γ} {view : Farm ε σ Audience → γ}
  (feeds : listeners.Feeds subscription Event.isOfRender take view)
  (wants : subscription.kinds.contains .render = true)
include feeds wants

theorem start_relays {farm : Farm ε σ Audience} (size : Dimensions)
    (lists : farm.bus.Lists subscription) :
    Relays subscription take view (view farm) size [] (start farm size) := by
  have wanted : subscription.kinds.has (Event.sceneLoaded size).kind = true :=
    EventKinds.has_of_contains wants (Event.isOfRender_sceneLoaded size)
  obtain ⟨serves, silent⟩ := Broadcast.serves_start lists wanted
  refine ⟨⟨fun _ _ none => (by cases none), .nil, fun row => ?_⟩,
    ⟨[], feeds.same farm _ rfl rfl, rfl, serves, rfl, silent.symm⟩, List.forall_mem_nil _⟩
  simp [start, Occurrence.lines, TellsRow]

/-- A subscription takes everything in as long as it stays. -/
theorem play_relays [Scene σ] [Evaluator ε σ] {farm : Farm ε σ Audience} {size : Dimensions}
    {moves : List (Move ε σ Audience)} (lenient : listeners.MayCancel farm.cursors.size)
    (spares : ∀ move ∈ moves, move.Spares farm.cursors.size)
    (unseen : ∀ move ∈ moves, move.Unseen view)
    (stays : ∀ before, before <+: moves →
      ((start farm size).play listeners before).farm.bus.Lists subscription) :
    ∃ p lines, ((start farm size).play listeners moves).Runs size p ∧
      Relays subscription take view (view farm) size lines
        ((start farm size).play listeners moves) := by
  induction moves using List.reverseRecOn with
  | nil =>
      exact ⟨_, _, start_runs farm size, start_relays feeds wants size (stays [] List.nil_prefix)⟩
  | append_singleton moves move ih =>
      obtain ⟨p, lines, runs, relays⟩ := ih
        (fun other member => spares other (List.mem_append_left _ member))
        (fun other member => unseen other (List.mem_append_left _ member))
        fun before isBefore => stays before (isBefore.trans (List.prefix_append ..))
      have last : move ∈ moves ++ [move] := List.mem_append_right _ (.head _)
      have numbered : ((start farm size).play listeners moves).rendering.number =
          farm.cursors.size := number_play listeners _ _
      have spare : move.Spares ((start farm size).play listeners moves).rendering.number :=
        numbered ▸ spares move last
      obtain ⟨q, after, -⟩ := runs.step (numbered ▸ lenient) spare
      obtain ⟨lines', further⟩ := Relays.step feeds (stays moves (List.prefix_append ..)) relays
        wants runs (unseen move last)
      rw [play_append]
      exact ⟨q, lines', after, further⟩

/-- When a render returns, a subscription that stayed has taken in the scene, then the lines on record,
each once, as many as the report counts, and the end. -/
theorem returned_relays [Scene σ] [Evaluator ε σ] {farm : Farm ε σ Audience} {size : Dimensions}
    {moves : List (Move ε σ Audience)} (lenient : listeners.MayCancel farm.cursors.size)
    (spares : ∀ move ∈ moves, move.Spares farm.cursors.size)
    (unseen : ∀ move ∈ moves, move.Unseen view)
    (stays : ∀ before, before <+: moves →
      ((start farm size).play listeners before).farm.bus.Lists subscription)
    {summary : RenderSummary}
    (returned : ((start farm size).play listeners moves).stage = .returned summary) :
    ∃ (lines : List (UInt32 × List UInt32)) (elapsed : Nat),
      view ((start farm size).play listeners moves).farm =
        (Event.sceneLoaded size :: lines.map (Event.ofLine size) ++
          [Event.sceneRendered elapsed]).foldl take (view farm) ∧
      (lines.map Prod.fst).Perm
        (Occurrence.lines ((start farm size).play listeners moves).rendering.history) ∧
      lines.length = summary.rowsComputed ∧
      (∀ line ∈ lines, line.1 < size.height ∧
        ∃ id, .published id line.1 line.2 ∈
          ((start farm size).play listeners moves).rendering.history) ∧
      (lines.map Prod.fst).Nodup := by
  obtain ⟨p, lines, runs, relays⟩ := play_relays feeds wants lenient spares unseen stays
  have regular := runs.sound.regular
  have made : summary ∈ ((start farm size).play listeners moves).stage.summary? := by
    rw [returned]
    rfl
  have silent := runs.telling_of_stopped (runs.stopped made)
  have rows : ∀ row, row ∈ lines.map Prod.fst ↔ row ∈ Occurrence.lines p.history := by
    intro row
    rw [relays.rows, runs.shows.history, or_iff_left]
    rintro ⟨id, telling, told, -⟩
    rw [silent] at told
    cases told
  have counted : (p.drivers.map RowDriver.published).sum = (Occurrence.lines p.history).length :=
    regular.counted
  have all := (List.perm_ext_iff_of_nodup relays.once regular.nodup_lines).2 rows
  obtain ⟨events, known, told⟩ := relays.told
  rw [returned] at told
  obtain ⟨elapsed, rfl⟩ := told
  refine ⟨lines, elapsed, known, runs.shows.history ▸ all, ?_, fun line member => ⟨?_, ?_⟩,
    relays.once⟩
  · rw [(runs.reported summary made).2, counted, ← all.length_eq, List.length_map]
  · have published := (rows line.1).1 (List.mem_map_of_mem member)
    have claimed := regular.claimed_of_settled ((lines_sublist_settled p.history).subset published)
    exact UInt32.lt_iff_toNat_lt.2 (regular.banded.mem_claims.1 claimed).2
  · refine (relays.vouched line member).resolve_right ?_
    rintro ⟨id, telling, told, -⟩
    rw [silent] at told
    cases told

end Relay

/-- What a subscription hears of a render that returns while it stays: the scene, then a line for every
row that the report counts, each once, and the end. The counters of rows stay below the height. -/
theorem heard_of_render [Scene σ] [Evaluator ε σ] {listeners : Listeners ε σ Audience}
    {subscription : Subscription} {heard : Farm ε σ Audience → List Event}
    (follows : listeners.Follows subscription Event.isOfRender heard)
    (wants : subscription.kinds.contains .render = true) (farm : Farm ε σ Audience)
    (size : Dimensions) (moves : List (Move ε σ Audience))
    (lenient : listeners.MayCancel farm.cursors.size)
    (spares : ∀ move ∈ moves, move.Spares farm.cursors.size)
    (unseen : ∀ move ∈ moves, move.Unseen heard)
    (stays : ∀ before, before <+: moves →
      ((start farm size).play listeners before).farm.bus.Lists subscription) :
    let after := (start farm size).play listeners moves
    (after.rendering.drivers.map RowDriver.published).sum < 2 ^ 32 ∧
      ∀ summary, after.stage = .returned summary →
        ∃ (lines : List (UInt32 × List UInt32)) (elapsed : Nat),
        heard after.farm = heard farm ++
          (.sceneLoaded size :: lines.map (Event.ofLine size) ++ [.sceneRendered elapsed]) ∧
        lines.length = summary.rowsComputed ∧
        (∀ line ∈ lines, line.1 < size.height) ∧ (lines.map Prod.fst).Nodup := by
  intro after
  constructor
  · obtain ⟨p, runs⟩ := play_runs lenient size spares
    have counted : (p.drivers.map RowDriver.published).sum = (Occurrence.lines p.history).length :=
      runs.sound.regular.counted
    rw [runs.shows.drivers, counted]
    exact runs.sound.regular.length_lines_le.trans_lt size.height.toNat_lt
  · intro summary returned
    obtain ⟨lines, elapsed, known, -, counted, own, once⟩ :=
      returned_relays follows wants lenient spares unseen stays returned
    rw [Event.foldl_noted] at known
    exact ⟨lines, elapsed, known, counted, fun line member => (own line member).1, once⟩

/-- Listeners of which the first keeps a record, and the others cancel the render at a line. -/
def attentive : Listeners Bindings Picture (List Event) where
  onEvent id event farm :=
    if id = ⟨0⟩ then
      { farm with audience :=
          if event.isOfRender then farm.audience ++ [event] else farm.audience }
    else hasty.onEvent id event farm
  onState _ audience := audience

/-- A callback that keeps a record, a channel, and a callback that cancels. -/
def attended : Farm Bindings Picture (List Event) :=
  { Farm.start 0 ((Array.range 2).map fun id => .holding id .empty ⟨⟨1, 3⟩, .solid .black⟩) [] with
    bus := ((EventBus.empty.subscribe .render).2.openChannel .render).2.subscribe .render |>.2 }

/-- What a hasty listener does shows on the cursors only. -/
theorem hasty_frame {ε σ Audience : Type} (id : SubscriptionId) (event : Event)
    (farm : Farm ε σ Audience) :
    (hasty.onEvent id event farm).audience = farm.audience ∧
      (hasty.onEvent id event farm).bus = farm.bus := by
  cases event with
  | sceneLoaded | sceneRendered | evalError | stdoutWritten => exact ⟨rfl, rfl⟩
  | lineComputed row size colors =>
      simp only [hasty, Farm.cancel]
      split <;> exact ⟨rfl, rfl⟩

theorem attentive_mayCancel (render : Nat) : attentive.MayCancel render := by
  intro id event farm cursor there
  simp only [attentive]
  split
  · exact ⟨cursor, there, .inl rfl⟩
  · exact hasty_mayCancel render id event farm cursor there

theorem attentive_follows_record :
    attentive.Follows ⟨⟨0⟩, .render, .callback⟩ Event.isOfRender fun farm => farm.audience := by
  refine Listeners.follows_callback (fun record => record) .render (fun event farm => ?_)
    (fun other different event farm => ?_) fun _ _ => rfl
  · simp only [attentive, if_true]
  · simp only [attentive, if_neg different]
    exact (hasty_frame other event farm).1

theorem attentive_follows_channel :
    attentive.Follows ⟨⟨1⟩, .render, .channel⟩ Event.isOfRender
      fun farm => farm.bus.waitingOf Event.isOfRender ⟨1⟩ :=
  Listeners.follows_channel .render fun other event farm => by
    simp only [attentive]
    split
    · rfl
    · rw [(hasty_frame other event farm).2]

/-- Two drivers publish side by side, and the render is cancelled at the first line. -/
def sideBySide : List (Move Bindings Picture (List Event)) :=
  List.replicate 4 .close ++ (List.replicate 9 [.drive 0, .drive 1]).flatten ++
    List.replicate 8 .close

/-- The record and the channel both get the two lines that the report counts. -/
theorem attended_render_tells_two_lines :
    let after := (start attended ⟨1, 3⟩).play attentive sideBySide
    after.stage = .returned ⟨2, true⟩ ∧
      ∀ events ∈ [after.farm.audience, after.farm.bus.waitingOf Event.isOfRender ⟨1⟩],
        ∃ (lines : List (UInt32 × List UInt32)) (elapsed : Nat),
          events = .sceneLoaded ⟨1, 3⟩ :: lines.map (Event.ofLine ⟨1, 3⟩) ++
            [.sceneRendered elapsed] ∧
          lines.length = 2 := by
  intro after
  have returned : after.stage = .returned ⟨2, true⟩ := by decide +kernel
  have spares : ∀ move ∈ sideBySide, move.Spares 0 := by
    simp [sideBySide, Move.Spares]
  have unseen : ∀ heard : Farm Bindings Picture (List Event) → List Event,
      ∀ move ∈ sideBySide, move.Unseen heard := by
    simp [sideBySide, Move.Unseen]
  have stays : ∀ before ∈ sideBySide.inits,
      ((start attended ⟨1, 3⟩).play attentive before).farm.bus.Lists ⟨⟨0⟩, .render, .callback⟩ ∧
      ((start attended ⟨1, 3⟩).play attentive before).farm.bus.Lists ⟨⟨1⟩, .render, .channel⟩ := by
    decide +kernel
  obtain ⟨-, recorded⟩ := heard_of_render attentive_follows_record (by decide) attended ⟨1, 3⟩
    sideBySide (attentive_mayCancel _) spares (unseen _)
    fun before isBefore => (stays before ((List.mem_inits _ _).2 isBefore)).1
  obtain ⟨-, queued⟩ := heard_of_render attentive_follows_channel (by decide) attended ⟨1, 3⟩
    sideBySide (attentive_mayCancel _) spares (unseen _)
    fun before isBefore => (stays before ((List.mem_inits _ _).2 isBefore)).2
  obtain ⟨lines, elapsed, record, two, -⟩ := recorded _ returned
  obtain ⟨lines', elapsed', waiting, two', -⟩ := queued _ returned
  refine ⟨returned, fun events member => ?_⟩
  simp only [List.mem_cons, List.not_mem_nil, or_false] at member
  rcases member with rfl | rfl
  · exact ⟨lines, elapsed, record, two⟩
  · exact ⟨lines', elapsed', waiting, two'⟩

end RenderCall

end RenderFarm
