import RenderFarm.Proofs.Event.Following
import RenderFarm.Proofs.Rendering.Stirs

/-!
# What a subscription hears of the drivers

A line goes on record in the step that tells it to the listeners. So what a subscription that stays takes
in of a render is the scene, and then the lines on record, in the order of the record (`play_told`). What
holds of the record therefore holds of what is heard: every row is claimed once, told once and heard of
once (`rows_claimed_and_published_once`).
-/

namespace RenderFarm

open Occurrence RenderFarm.Language

namespace Occurrence

/-- A line that was published, with its colors. -/
def drawn? : Occurrence → Option (UInt32 × List UInt32)
  | published _ row colors => some (row, colors)
  | claimed .. | skipped .. | lost .. => none

/-- The lines published, with their colors, in the order of their publication. -/
def drawn (history : List Occurrence) : List (UInt32 × List UInt32) :=
  history.filterMap drawn?

theorem drawn_append (before after : List Occurrence) :
    drawn (before ++ after) = drawn before ++ drawn after :=
  List.filterMap_append

theorem map_fst_drawn (history : List Occurrence) : (drawn history).map Prod.fst = lines history := by
  rw [drawn, List.map_filterMap]
  exact List.filterMap_congr fun occurrence _ => by cases occurrence <;> rfl

theorem mem_drawn {history : List Occurrence} {line : UInt32 × List UInt32} :
    line ∈ drawn history ↔ ∃ id, .published id line.1 line.2 ∈ history := by
  rw [drawn, List.mem_filterMap]
  constructor
  · rintro ⟨occurrence, member, shown⟩
    cases occurrence with
    | published id row colors =>
        cases shown
        exact ⟨id, member⟩
    | claimed | skipped | lost => cases shown
  · rintro ⟨id, member⟩
    exact ⟨_, member, rfl⟩

end Occurrence

namespace Rendering

variable {ε σ Audience : Type} [Scene σ] [Evaluator ε σ] {listeners : Listeners ε σ Audience}

/-- Every subscription to the events of renders that stays has heard of the scene and then of the lines on
record, in the order of the record, and of nothing else. -/
def HeardAsRecorded (listeners : Listeners ε σ Audience) (farm : Farm ε σ Audience) (size : Dimensions)
    (after : Rendering ε σ Audience) : Prop :=
  ∀ (subscription : Subscription) (heard : Farm ε σ Audience → List Event),
    listeners.Follows subscription Event.isOfRender heard → listeners.Retains subscription →
    subscription.kinds.contains .render = true → farm.bus.Lists subscription →
    heard after.farm =
      heard farm ++ .sceneLoaded size :: (drawn after.history).map (Event.ofLine size)

section Feeds

variable {γ : Type} {subscription : Subscription} {take : γ → Event → γ}
  {view : Farm ε σ Audience → γ}
  (feeds : listeners.Feeds subscription Event.isOfRender take view)
include feeds

/-- A driver that has no line to publish is not seen. -/
theorem drive_unseen {rendering : Rendering ε σ Audience} {p : Progress} (shows : rendering.Shows p)
    {id : Nat} (unready : ∀ driver ∈ rendering.drivers[id]?, ∀ row colors,
      driver.phase ≠ .publish row colors) :
    view (rendering.drive listeners id).farm = view rendering.farm ∧
      ∃ more, (rendering.drive listeners id).history = rendering.history ++ more ∧
        drawn more = [] := by
  have cursorAt : rendering.farm.cursors[rendering.number]? = some p.cursor := shows.cursor
  unfold drive
  cases found : rendering.drivers[id]? with
  | none => exact ⟨rfl, [], (List.append_nil _).symm, rfl⟩
  | some driver =>
      dsimp only
      suffices seen : view (Farm.stepDriver listeners rendering.number id driver rendering.farm).2 =
          view rendering.farm ∧
          drawn (RowDriver.occurrence? id driver.phase (Farm.stepDriver listeners rendering.number id
            driver rendering.farm).1.phase).toList = [] from ⟨seen.1, _, rfl, seen.2⟩
      cases phase : driver.phase with
      | test =>
          simp only [Farm.stepDriver, cursorAt, phase]
          exact ⟨trivial, rfl⟩
      | claim =>
          simp only [Farm.stepDriver, cursorAt, phase]
          refine ⟨feeds.same _ _ rfl rfl, ?_⟩
          cases p.cursor.claim.1 <;> rfl
      | await row =>
          simp only [Farm.stepDriver, cursorAt, phase]
          refine ⟨(feeds.keeps Event.isOfRender_stdoutWritten _).answerRow id row rfl, ?_⟩
          cases (rendering.farm.answerRow listeners id row).1 <;> rfl
      | publish row colors => exact absurd phase (unready driver found row colors)
      | stopped =>
          simp only [Farm.stepDriver, cursorAt, phase]
          exact ⟨trivial, rfl⟩

theorem cancel_unseen (rendering : Rendering ε σ Audience) :
    view (rendering.step listeners .cancel).farm = view rendering.farm := by
  simp only [step]
  cases rendering.cursor? with
  | none => rfl
  | some cursor =>
      simp only [Option.map_some, Option.getD_some, cancel]
      split <;> exact feeds.same _ _ rfl rfl

variable (retains : listeners.Retains subscription)
  (wants : subscription.kinds.contains .render = true)
include retains wants

/-- A step of a driver is seen if it puts a line on record. -/
theorem drive_told {rendering : Rendering ε σ Audience} {p : Progress} (shows : rendering.Shows p)
    (lists : rendering.farm.bus.Lists subscription) (id : Nat) :
    ∃ more, (rendering.drive listeners id).history = rendering.history ++ more ∧
      view (rendering.drive listeners id).farm =
        ((drawn more).map (Event.ofLine p.cursor.size)).foldl take (view rendering.farm) := by
  by_cases unready : ∀ driver ∈ rendering.drivers[id]?, ∀ row colors,
      driver.phase ≠ .publish row colors
  · obtain ⟨same, more, history, none⟩ := drive_unseen feeds shows unready
    exact ⟨more, history, by rw [none]; exact same⟩
  · push Not at unready
    obtain ⟨driver, found, row, colors, phase⟩ := unready
    have picked := Event.isOfRender_ofLine p.cursor.size (row, colors)
    rw [drive_publish listeners found shows.cursor phase]
    exact ⟨[.published id row colors], rfl,
      feeds.publish retains _ picked (EventKinds.has_of_contains wants picked) lists⟩

/-- A move is seen if it puts a line on record. -/
theorem step_told {rendering : Rendering ε σ Audience} {p : Progress} (shows : rendering.Shows p)
    (lists : rendering.farm.bus.Lists subscription) (move : Move ε σ) :
    ∃ more, (rendering.step listeners move).history = rendering.history ++ more ∧
      view (rendering.step listeners move).farm =
        ((drawn more).map (Event.ofLine p.cursor.size)).foldl take (view rendering.farm) := by
  cases move with
  | drive id => exact drive_told feeds retains wants shows lists id
  | cancel =>
      obtain ⟨farm, cancelling, stepped⟩ := step_cancel listeners rendering
      exact ⟨[], by simp [stepped], cancel_unseen feeds rendering⟩
  | close =>
      obtain ⟨closing, stepped⟩ := step_close listeners rendering
      exact ⟨[], by simp [stepped], by rw [stepped]; rfl⟩
  | alter id worker => exact ⟨[], (List.append_nil _).symm, feeds.same _ _ rfl rfl⟩

/-- What a subscription that stays has taken in of a render: the scene, and then the lines on record. -/
theorem play_told {farm : Farm ε σ Audience} (lenient : listeners.MayCancel farm.cursors.size)
    (size : Dimensions) (lists : farm.bus.Lists subscription) (moves : List (Move ε σ)) :
    let after := (start listeners farm size).play listeners moves
    after.farm.bus.Lists subscription ∧
      view after.farm = (.sceneLoaded size :: (drawn after.history).map (Event.ofLine size)).foldl take
        (view farm) := by
  intro after
  have placed : (farm.beginRender size).2.bus.Lists subscription := lists
  have begun : (start listeners farm size).farm.bus.Lists subscription := retains.publish _ placed
  have stays : ∀ moves, ((start listeners farm size).play listeners moves).farm.bus.Lists
      subscription := fun moves =>
    play_keeps retains.keeps (fun event _ lists => retains.publish event lists) (fun _ _ lists => lists)
      moves begun
  refine ⟨stays moves, ?_⟩
  induction moves using List.reverseRecOn with
  | nil =>
      have picked := Event.isOfRender_sceneLoaded size
      have told : view (start listeners farm size).farm = take (view (farm.beginRender size).2) _ :=
        feeds.publish retains _ picked (EventKinds.has_of_contains wants picked) lists
      exact told.trans (congrArg (take · _) (feeds.same farm (farm.beginRender size).2 rfl rfl))
  | append_singleton moves move ih =>
      obtain ⟨p, shows, sound⟩ := play_sound lenient size moves
      obtain ⟨more, history, seen⟩ := step_told feeds retains wants shows (stays moves) move
      have last : after = ((start listeners farm size).play listeners moves).step listeners move :=
        play_append ..
      rw [last, seen, history, ih, sound.sized, drawn_append, List.map_append, ← List.cons_append,
        List.foldl_append]

end Feeds

theorem play_heardAsRecorded {farm : Farm ε σ Audience}
    (lenient : listeners.MayCancel farm.cursors.size) (size : Dimensions) (moves : List (Move ε σ)) :
    ((start listeners farm size).play listeners moves).HeardAsRecorded listeners farm size := by
  intro subscription heard follows retains wants lists
  obtain ⟨-, told⟩ := play_told follows retains wants lenient size lists moves
  rw [told, Event.foldl_noted]

/-- What a render does to rows, whatever the interleaving, and whether or not it is cancelled: the rows
claimed are the top rows, each claimed once and by every driver from the top down; a line comes from the
driver that claimed its row, and once; and what subscriptions hear is what is on record. If nobody cancels,
no row is lost with its worker, and the workers keep a scene as high as the render, all rows are published
when the drivers have stopped. -/
theorem rows_claimed_and_published_once (listeners : Listeners ε σ Audience)
    (farm : Farm ε σ Audience) (size : Dimensions) (moves : List (Move ε σ))
    (lenient : listeners.MayCancel farm.cursors.size) :
    let after := (start listeners farm size).play listeners moves
    (claims after.history).Nodup ∧
      (∃ low ≤ size.height.toNat, ∀ row, row ∈ claims after.history ↔
        low ≤ row.toNat ∧ row.toNat < size.height.toNat) ∧
      (∀ id, (claims (byDriver id after.history)).Pairwise (· > ·)) ∧
      (∀ id row colors, .published id row colors ∈ after.history →
        .claimed id row ∈ after.history) ∧
      (lines after.history).Nodup ∧
      after.HeardAsRecorded listeners farm size ∧
      (listeners.SpareCursor farm.cursors.size →
        Scene.Steady σ → (∀ move ∈ moves, move.isCancel = false) →
        (∀ id row, .lost id row ∉ after.history) →
        (∀ before, before <+: moves →
          ∀ worker ∈ ((start listeners farm size).play listeners before).farm.workers,
            worker.Retains size.height) →
        0 < after.drivers.length → after.drivers.all RowDriver.isStopped →
        ∀ row, (lines after.history).count row = if row < size.height then 1 else 0) := by
  intro after
  obtain ⟨p, shows, sound⟩ := play_sound lenient size moves
  have regular := sound.regular
  have history : after.history = p.history := shows.history
  refine ⟨history ▸ regular.banded.nodup_claims, ?_, ?_, ?_, history ▸ regular.nodup_lines,
    play_heardAsRecorded lenient size moves, ?_⟩
  · refine ⟨_, Nat.sub_le size.height.toNat (claims p.history).length, fun row => ?_⟩
    rw [history, regular.banded.mem_claims]
  · exact fun id => history ▸ regular.descending_byDriver id
  · intro id row colors member
    rw [history] at member ⊢
    exact regular.claimed_of_published member
  · intro spare steady uncancelled unlost retained driven stopped
    exact play_count_lines spare size steady uncancelled unlost retained driven stopped

/-- Two workers with a black picture of two rows. -/
def blackPair : Farm Bindings Picture Unit :=
  .start 0 ((Array.range 2).map fun id => .holding id .empty ⟨⟨1, 2⟩, .solid .black⟩) ()

/-- The two workers, and a channel. -/
def wiredPair : Farm Bindings Picture Unit :=
  { blackPair with bus := (EventBus.empty.openChannel .render).2 }

/-- Two drivers taking turns, step by step, until both have stopped. -/
def alternation : List (Move Bindings Picture) :=
  (List.replicate 7 [.drive 0, .drive 1]).flatten

/-- Both rows are on record once, and wait in the channel. -/
theorem alternation_publishes_both_rows :
    let after := (start .silent wiredPair ⟨1, 2⟩).play .silent alternation
    (lines after.history).count 0 = 1 ∧ (lines after.history).count 1 = 1 ∧
      after.farm.bus.waitingOf Event.isOfRender ⟨0⟩ =
        [.sceneLoaded ⟨1, 2⟩, .lineComputed 1 ⟨1, 2⟩ [0], .lineComputed 0 ⟨1, 2⟩ [0]] := by
  intro after
  have history : after.history =
      [.claimed 0 1, .claimed 1 0, .published 0 1 [0], .published 1 0 [0]] := by
    decide +kernel
  have retained : ∀ before ∈ alternation.inits,
      ∀ worker ∈ ((start .silent wiredPair ⟨1, 2⟩).play .silent before).farm.workers,
        worker.Retains 2 := by
    decide +kernel
  have spare : (Listeners.silent : Listeners Bindings Picture Unit).SpareCursor
      wiredPair.cursors.size :=
    Listeners.silent_spareCursor _
  obtain ⟨-, -, -, -, -, heard, coverage⟩ :=
    rows_claimed_and_published_once .silent wiredPair ⟨1, 2⟩ alternation spare.mayCancel
  have covered := coverage spare Picture.steady (by decide) (by rw [history]; simp)
    (fun before isBefore => retained before ((List.mem_inits _ _).2 isBefore)) (by decide +kernel)
    (by decide +kernel)
  have waiting := heard ⟨⟨0⟩, .render, .channel⟩ _ (Listeners.follows_channel .render fun _ _ _ => rfl)
    (fun _ _ _ lists => lists) (by decide) (by decide)
  rw [history] at waiting
  exact ⟨covered 0, covered 1, waiting⟩

end Rendering

end RenderFarm
