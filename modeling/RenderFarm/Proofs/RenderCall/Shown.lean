import RenderFarm.Proofs.Canvas.Listening
import RenderFarm.Proofs.RenderCall.Protocol

/-!
# What a canvas shows of a render

A canvas among the listeners takes in the events of a render one by one. Drivers count the lines that they
publish, and the canvas counts the rows that are painted on it; the canvas turns the scene upside down. When
the render has returned, the two counts are the same, and each pixel has the color that was published for it,
or is black (`canvas_agrees_with_report`), whatever was on the canvas before.
-/

namespace RenderFarm

open Occurrence RenderFarm.Language

namespace Canvas

/-- The colors of a row among lines. -/
def colorsOf (lines : List (UInt32 × List UInt32)) (row : UInt32) : List UInt32 :=
  (lines.lookup row).getD []

theorem colorsOf_of_mem {lines : List (UInt32 × List UInt32)} (once : (lines.map Prod.fst).Nodup)
    {line : UInt32 × List UInt32} (member : line ∈ lines) : colorsOf lines line.1 = line.2 := by
  induction lines with
  | nil => cases member
  | cons first rest ih =>
      obtain ⟨row, colors⟩ := first
      obtain ⟨fresh, once⟩ := List.nodup_cons.1 once
      rcases List.mem_cons.1 member with rfl | later
      · simp [colorsOf]
      · have among : line.1 ∈ rest.map Prod.fst := List.mem_map_of_mem later
        have different : (line.1 == row) = false :=
          beq_eq_false_iff_ne.2 fun same => fresh (same ▸ among)
        simpa only [colorsOf, List.lookup_cons, different] using ih once later

/-- The pixels of a canvas with nothing but these rows on it. -/
theorem pixel?_paintRows (colors : UInt32 → List UInt32) {size : Dimensions} {rows : List UInt32}
    (once : rows.Nodup) {x y : UInt32} (inX : x < size.width) (inY : y < size.height) :
    ((reset size).paintRows colors rows).pixel? x y =
      some (if size.height - 1 - y ∈ rows
        then ((colors (size.height - 1 - y))[x.toNat]?.map .ofPacked).getD .black else .black) := by
  have bound : x.toNat < size.width.toNat := UInt32.lt_iff_toNat_lt.1 inX
  have inside : size.height - 1 - y < size.height := flipped_lt inY
  have covered : ((reset size).paintRows colors rows).covered (size.height - 1 - y) =
      if size.height - 1 - y ∈ rows
        then ((colors (size.height - 1 - y)).take size.width.toNat).map .ofPacked else [] := by
    refine (covered_paintRows colors (reset size) once _).trans ?_
    rw [covered_reset]
    simp [reset, inside, overlay]
  have sized : ((reset size).paintRows colors rows).size = size := size_paintRows colors _ rows
  rw [pixel?, rowOf, sized, if_pos (And.intro inX inY), covered]
  split
  · rw [List.getElem?_map, List.getElem?_take, if_pos bound]
  · rfl

end Canvas

namespace RenderCall

variable {ε σ Audience : Type} [Scene σ] [Evaluator ε σ]

/-- When a render has returned, a canvas that was attached before and that nothing else paints on has the
size of the render and is at rest, it has as many rows painted as the report counts, and it is complete when
those are all. A pixel has the color that the published line gives it, and is black where the line is too
short or was not published. -/
theorem canvas_agrees_with_report {listeners : Listeners ε σ Audience} {id : SubscriptionId}
    {canvas : Audience → Canvas} (exhibits : listeners.Exhibits id canvas)
    (farm : Farm ε σ Audience) (size : Dimensions) (moves : List (Move ε σ Audience))
    (lenient : listeners.MayCancel farm.cursors.size)
    (spares : ∀ move ∈ moves, move.Spares farm.cursors.size)
    (unseen : ∀ move ∈ moves, move.Unseen fun farm => canvas farm.audience)
    (stays : ∀ before, before <+: moves →
      ((start farm size).play listeners before).farm.bus.Lists ⟨id, .render, .callback⟩) :
    let after := (start farm size).play listeners moves
    let shown := canvas after.farm.audience
    ∀ summary, after.stage = .returned summary →
      shown.size = size ∧ shown.rendering = false ∧
      shown.paintedCount = summary.rowsComputed ∧
      (shown.allPainted = true ↔ summary.rowsComputed = size.height.toNat) ∧
      ∀ x y, x < size.width → y < size.height →
        (∀ driver colors, .published driver (size.height - 1 - y) colors ∈ after.rendering.history →
          shown.pixel? x y = some ((colors[x.toNat]?.map .ofPacked).getD .black)) ∧
        (size.height - 1 - y ∉ lines after.rendering.history → shown.pixel? x y = some .black) := by
  intro after shown summary returned
  have wants : EventKinds.render.contains .render = true := by decide
  obtain ⟨told, elapsed, view, rows, counted, own, once⟩ :=
    returned_relays exhibits.feeds wants lenient spares unseen stays returned
  have inside : ∀ row ∈ told.map Prod.fst, row < size.height := by
    intro row member
    obtain ⟨line, among, rfl⟩ := List.mem_map.1 member
    exact (own line among).1
  -- The scene wipes the canvas, and the end leaves the rows as they are.
  have same : shown = { (Canvas.reset size).paintRows (Canvas.colorsOf told) (told.map Prod.fst) with
      rendering := false, elapsed := some elapsed } := by
    have painted : (told.map (Event.ofLine size)).foldl Canvas.apply (Canvas.reset size) = _ :=
      Canvas.foldl_apply_lines (fun line member => Canvas.colorsOf_of_mem once member) rfl
    refine view.trans ?_
    rw [List.foldl_append, List.foldl_cons]
    exact congrArg (fun canvas => Canvas.apply canvas (.sceneRendered elapsed)) painted
  have count : ((Canvas.reset size).paintRows (Canvas.colorsOf told)
      (told.map Prod.fst)).paintedCount = told.length := by
    rw [Canvas.paintedCount_paintRows _ _ once inside (by simp [Canvas.reset])]
    simp [Canvas.reset, Canvas.paintedCount]
  have complete := Canvas.allPainted_paintRows (Canvas.colorsOf told) once inside
  rw [List.length_map, counted] at complete
  rw [same]
  refine ⟨Canvas.size_paintRows _ (Canvas.reset size) _, rfl, count.trans counted, complete,
    fun x y inX inY => ?_⟩
  have pixel := Canvas.pixel?_paintRows (Canvas.colorsOf told) once inX inY
  refine ⟨fun driver colors published => pixel.trans ?_, fun unpublished => pixel.trans ?_⟩
  · have among : size.height - 1 - y ∈ told.map Prod.fst :=
      rows.mem_iff.2 (mem_lines.2 ⟨driver, colors, published⟩)
    obtain ⟨line, member, row⟩ := List.mem_map.1 among
    obtain ⟨-, other, published'⟩ := own line member
    -- No row is published twice, so the line is the one that was told.
    have equal := eq_of_nodup_filterMap (rows.nodup_iff.1 once) published published' rfl
      (congrArg some row)
    rw [if_pos among, ← row, Canvas.colorsOf_of_mem once member, ← (Occurrence.published.inj equal).2.2]
  · rw [if_neg fun among => unpublished (rows.mem_iff.1 among)]

/-- Listeners of which the first is a canvas, and the others cancel the render at a line. -/
def exhibiting : Listeners Bindings Picture Canvas where
  onEvent id event farm :=
    if id = ⟨0⟩ then { farm with audience := farm.audience.apply event }
    else hasty.onEvent id event farm
  onState _ audience := audience

theorem exhibiting_exhibits : exhibiting.Exhibits ⟨0⟩ fun canvas => canvas where
  painted := fun event farm => by simp only [exhibiting, if_true]
  others := fun other different event farm => by
    simp only [exhibiting, if_neg different]
    exact (hasty_frame other event farm).1
  noted := fun _ _ => rfl

theorem exhibiting_mayCancel (render : Nat) : exhibiting.MayCancel render := by
  intro id event farm cursor there
  simp only [exhibiting]
  split
  · exact ⟨cursor, there, .inl rfl⟩
  · exact hasty_mayCancel render id event farm cursor there

/-- A worker that draws wider rows than the render asks for, one that draws narrower ones, and one without
a scene. A canvas of another size listens, and a callback that cancels. -/
def uneven : Farm Bindings Picture Canvas :=
  { Farm.start 0 #[.holding 0 .empty ⟨⟨5, 4⟩, .solid .white⟩, .holding 1 .empty ⟨⟨1, 4⟩, .solid .white⟩,
      { (Worker.create 2 standardIdleWindow : Worker Bindings Picture) with
        thread := .ready .empty none }] ((Canvas.reset ⟨7, 2⟩).paint 1 [255, 255]) with
    bus := ((EventBus.empty.subscribe .render).2.subscribe .render).2 }

/-- Three drivers take turns. -/
def byTurns : List (Move Bindings Picture Canvas) :=
  List.replicate 3 .close ++ (List.replicate 10 [.drive 2, .drive 0, .drive 1]).flatten ++
    List.replicate 8 .close

/-- The render is cancelled at its first line, and of five rows two are published. The canvas shows as much of
them as fits. -/
theorem uneven_render_leaves_gaps :
    let after := (start uneven ⟨3, 5⟩).play exhibiting byTurns
    after.stage = .returned ⟨2, true⟩ ∧
      after.farm.audience.paintedCount = 2 ∧ after.farm.audience.allPainted = false ∧
      after.farm.audience.pixel? 2 1 = some .white ∧
      after.farm.audience.pixel? 0 2 = some .white ∧ after.farm.audience.pixel? 1 2 = some .black ∧
      after.farm.audience.pixel? 0 0 = some .black := by
  intro after
  have returned : after.stage = .returned ⟨2, true⟩ := by decide +kernel
  have history : after.rendering.history = [.claimed 2 4, .claimed 0 3, .claimed 1 2, .skipped 2 4,
      .claimed 2 1, .skipped 2 1, .published 0 3 (List.replicate 5 0xffffff),
      .published 1 2 [0xffffff]] := by decide +kernel
  have spares : ∀ move ∈ byTurns, move.Spares 0 := by
    simp [byTurns, Move.Spares]
  have unseen : ∀ move ∈ byTurns, move.Unseen fun farm => farm.audience := by
    simp [byTurns, Move.Unseen]
  have stays : ∀ before ∈ byTurns.inits,
      ((start uneven ⟨3, 5⟩).play exhibiting before).farm.bus.Lists ⟨⟨0⟩, .render, .callback⟩ := by
    decide +kernel
  obtain ⟨-, -, count, complete, pixels⟩ := canvas_agrees_with_report exhibiting_exhibits uneven ⟨3, 5⟩
    byTurns (exhibiting_mayCancel _) spares unseen
    (fun before isBefore => stays before ((List.mem_inits _ _).2 isBefore)) _ returned
  refine ⟨returned, count, Bool.eq_false_iff.2 fun whole => ?_, ?_, ?_, ?_, ?_⟩
  · exact absurd (complete.1 whole) (by decide)
  · exact (pixels 2 1 (by decide) (by decide)).1 0 (List.replicate 5 0xffffff)
      (by rw [history]; decide +kernel)
  · exact (pixels 0 2 (by decide) (by decide)).1 1 [0xffffff] (by rw [history]; decide +kernel)
  · exact (pixels 1 2 (by decide) (by decide)).1 1 [0xffffff] (by rw [history]; decide +kernel)
  · exact (pixels 0 0 (by decide) (by decide)).2 (by rw [history]; decide +kernel)

end RenderCall

end RenderFarm
