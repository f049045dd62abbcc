import RenderFarm.Proofs.Canvas.Scenes
import RenderFarm.Proofs.Event.Following

/-!
# A canvas among the listeners

A canvas on which one callback paints, and nothing else, takes in the events of renders that its
subscription is handed (`Exhibits.feeds`). So what holds of whatever a subscription makes of the events
holds of the canvas. Listeners that only take notes change nothing but what they keep themselves, so they
leave a render alone and every subscription where it is.
-/

namespace RenderFarm

/-- Lines of the size of a canvas are painted. -/
theorem Canvas.foldl_apply_lines {size : Dimensions} {colors : UInt32 → List UInt32}
    {lines : List (UInt32 × List UInt32)} (own : ∀ line ∈ lines, colors line.1 = line.2)
    {canvas : Canvas} (sized : canvas.size = size) :
    (lines.map (Event.ofLine size)).foldl apply canvas =
      canvas.paintRows colors (lines.map Prod.fst) := by
  induction lines generalizing canvas with
  | nil => rfl
  | cons line rest ih =>
      have painted : canvas.apply (.ofLine size line) = canvas.paint line.1 (colors line.1) := by
        rw [own line (.head _)]
        simp only [apply, Event.ofLine, sized, if_true]
      rw [List.map_cons, List.foldl_cons, painted]
      exact ih (fun other member => own other (.tail _ member)) ((size_paint ..).trans sized)

/-- Events of evaluations do not show. -/
theorem Canvas.apply_of_not_isOfRender {event : Event} (other : event.isOfRender = false)
    (canvas : Canvas) : canvas.apply event = canvas := by
  cases event with
  | sceneLoaded size =>
      rw [Event.isOfRender_sceneLoaded] at other
      cases other
  | lineComputed row size colors =>
      have line := Event.isOfRender_ofLine size (row, colors)
      exact absurd (line.symm.trans other) nofun
  | sceneRendered elapsed =>
      rw [Event.isOfRender_sceneRendered] at other
      cases other
  | evalError | stdoutWritten => rfl

namespace Listeners

variable {ε σ Audience : Type} {listeners : Listeners ε σ Audience} {id : SubscriptionId}
  {canvas : Audience → Canvas}

/-- A canvas in what listeners keep: the callback of a subscription lets it take in every event, and nothing
else paints on it. -/
structure Exhibits (listeners : Listeners ε σ Audience) (id : SubscriptionId)
    (canvas : Audience → Canvas) : Prop where
  painted : ∀ event farm, canvas (listeners.onEvent id event farm).audience =
    (canvas farm.audience).apply event
  others : ∀ other, other ≠ id → ∀ event farm,
    canvas (listeners.onEvent other event farm).audience = canvas farm.audience
  noted : ∀ report audience, canvas (listeners.onState report audience) = canvas audience

/-- A canvas takes in the events of renders; others do not show on it. -/
theorem Exhibits.feeds (exhibits : listeners.Exhibits id canvas) :
    listeners.Feeds ⟨id, .render, .callback⟩ Event.isOfRender Canvas.apply
      fun farm => canvas farm.audience := by
  refine feeds_callback canvas .render (fun event farm => ?_) exhibits.others exhibits.noted
  rw [exhibits.painted]
  split
  · rfl
  · next other => exact Canvas.apply_of_not_isOfRender (Bool.eq_false_iff.2 other) _

/-- Callbacks change nothing but what listeners keep. -/
def TakesNotes (listeners : Listeners ε σ Audience) : Prop :=
  ∀ id event farm, ∃ audience, listeners.onEvent id event farm = { farm with audience := audience }

namespace TakesNotes

variable (takesNotes : listeners.TakesNotes)
include takesNotes

theorem unheard {β : Type} {view : Farm ε σ Audience → β}
    (bus : ∀ farm bus, view { farm with bus := bus } = view farm)
    (audience : ∀ farm audience, view { farm with audience := audience } = view farm) :
    Farm.Unheard listeners view where
  bus := bus
  audience := audience
  callback := by
    intro id event farm
    obtain ⟨noted, same⟩ := takesNotes id event farm
    rw [same, audience]

theorem spareCursor (render : Nat) : listeners.SpareCursor render :=
  (takesNotes.unheard (fun _ _ => rfl) fun _ _ => rfl :
    Farm.Unheard listeners fun farm => farm.cursors[render]?).callback

theorem spareWorkers : Farm.Unheard listeners fun farm => farm.workers :=
  takesNotes.unheard (fun _ _ => rfl) fun _ _ => rfl

theorem spareClock : Farm.Unheard listeners fun farm => farm.now :=
  takesNotes.unheard (fun _ _ => rfl) fun _ _ => rfl

theorem retains (subscription : Subscription) : listeners.Retains subscription := by
  intro id event farm lists
  obtain ⟨audience, same⟩ := takesNotes id event farm
  rwa [same]

end TakesNotes

/-- A canvas that made the first subscription, and nothing else. -/
def painting : Listeners ε σ Canvas where
  onEvent id event farm :=
    { farm with audience := if id = ⟨0⟩ then farm.audience.apply event else farm.audience }
  onState _ canvas := canvas

theorem painting_exhibits : (painting : Listeners ε σ Canvas).Exhibits ⟨0⟩ fun canvas => canvas where
  painted _ _ := by simp only [painting, if_true]
  others _ different _ _ := by simp only [painting, if_neg different]
  noted _ _ := rfl

theorem painting_takesNotes : (painting : Listeners ε σ Canvas).TakesNotes :=
  fun _ _ _ => ⟨_, rfl⟩

end Listeners

end RenderFarm
