import Mathlib.Data.Finset.Card
import RenderFarm.Proofs.Canvas.Scenes

/-!
# The strokes on a canvas

A canvas is updated by events and by rows that are painted by hand. What has to be known of its past
are the strokes since the last scene was loaded: the rows of the scene that were painted, each with
its colors. They tell the color of each pixel (`latest?`) and which rows have been painted
(`strokedRows`). The main statement is that a canvas after any updates shows its strokes
(`shows_strokes`).
-/

namespace RenderFarm.Canvas

/-- What updates a canvas: an event, or a row that is painted by hand. -/
inductive Update where
  | apply (event : Event)
  | paint (row : UInt32) (words : List UInt32)

def update (canvas : Canvas) : Update → Canvas
  | .apply event => canvas.apply event
  | .paint row words => canvas.paint row words

/-- A new canvas after some updates, the first one first. -/
def after (updates : List Update) : Canvas :=
  updates.foldl update empty

theorem after_concat (updates : List Update) (last : Update) :
    after (updates ++ [last]) = (after updates).update last := by
  simp [after]

/-! ## The past of a canvas -/

namespace Update

/-- The size of the scene that an update loads. -/
def loaded? : Update → Option Dimensions
  | .apply (.sceneLoaded size) => some size
  | _ => none

/-- The row that an update paints on a canvas of this size, with its colors. A line of a scene of
another size paints nothing, and neither does a row outside the canvas. -/
def stroke? (size : Dimensions) : Update → Option (UInt32 × List UInt32)
  | .paint row words => if row < size.height then some (row, words) else none
  | .apply (.lineComputed row other words) =>
    if other = size ∧ row < size.height then some (row, words) else none
  | .apply _ => none

theorem lt_of_stroke? {size : Dimensions} {update : Update} {row : UInt32} {words : List UInt32}
    (stroke : update.stroke? size = some (row, words)) : row < size.height := by
  unfold stroke? at stroke
  split at stroke
  · split at stroke <;> simp_all
  · split at stroke <;> simp_all
  · cases stroke

end Update

/-- The size of the scene that was loaded last; a new canvas has no pixels. -/
def lastSize (updates : List Update) : Dimensions :=
  (updates.reverse.findSome? Update.loaded?).getD ⟨0, 0⟩

/-- The updates since a scene was loaded last. -/
def sinceLoaded (updates : List Update) : List Update :=
  (updates.reverse.takeWhile fun update => update.loaded?.isNone).reverse

/-- The rows that were painted since a scene was loaded last, each with its colors, the first one
first. -/
def strokes (updates : List Update) : List (UInt32 × List UInt32) :=
  (sinceLoaded updates).filterMap (Update.stroke? (lastSize updates))

/-- The color in column `x` of the last stroke on a row that has a color there. -/
def latest? (strokes : List (UInt32 × List UInt32)) (row : UInt32) (x : Nat) : Option UInt32 :=
  strokes.reverse.findSome? fun stroke => if stroke.1 = row then stroke.2[x]? else none

/-- The distinct rows with a stroke on them. -/
def strokedRows (strokes : List (UInt32 × List UInt32)) : Finset UInt32 :=
  (strokes.map Prod.fst).toFinset

section Past

variable (updates : List Update) {last : Update}

theorem lastSize_concat (last : Update) :
    lastSize (updates ++ [last]) = last.loaded?.getD (lastSize updates) := by
  simp only [lastSize, List.reverse_append, List.reverse_singleton, List.singleton_append,
    List.findSome?_cons]
  cases last.loaded? <;> rfl

theorem strokes_concat_of_loaded {size : Dimensions} (loads : last.loaded? = some size) :
    strokes (updates ++ [last]) = [] := by
  simp [strokes, sinceLoaded, loads]

theorem strokes_concat (keeps : last.loaded? = none) :
    strokes (updates ++ [last]) =
      strokes updates ++ (last.stroke? (lastSize updates)).toList := by
  have since : sinceLoaded (updates ++ [last]) = sinceLoaded updates ++ [last] := by
    simp [sinceLoaded, keeps]
  rw [strokes, since, lastSize_concat, keeps, Option.getD_none, List.filterMap_append]
  cases stroke : last.stroke? (lastSize updates) <;> simp [strokes, stroke]

end Past

theorem latest?_concat (strokes : List (UInt32 × List UInt32)) (row other : UInt32)
    (words : List UInt32) (x : Nat) :
    latest? (strokes ++ [(row, words)]) other x =
      if row = other ∧ x < words.length then words[x]? else latest? strokes other x := by
  simp only [latest?, List.reverse_append, List.reverse_singleton, List.singleton_append,
    List.findSome?_cons]
  by_cases same : row = other <;> by_cases within : x < words.length <;> simp [same, within]

/-! ## One update -/

/-- What one update makes of a canvas. -/
inductive Updates (canvas : Canvas) (change : Update) : Canvas → Prop
  | loads (size : Dimensions) (loaded : change.loaded? = some size) :
      Updates canvas change (reset size)
  | strokes (row : UInt32) (words : List UInt32) (kept : change.loaded? = none)
      (stroke : change.stroke? canvas.size = some (row, words)) :
      Updates canvas change (canvas.paint row words)
  | keeps (rendering : Bool) (elapsed : Option Nat) (kept : change.loaded? = none)
      (stroke : change.stroke? canvas.size = none) :
      Updates canvas change { canvas with rendering := rendering, elapsed := elapsed }

/-- A row outside the canvas changes nothing. -/
theorem paint_of_le {canvas : Canvas} {row : UInt32} (outside : canvas.size.height ≤ row)
    (words : List UInt32) : canvas.paint row words = canvas := by
  rw [paint, if_neg (UInt32.not_lt.2 outside)]

/-- A line of a scene of another size changes nothing. -/
theorem apply_lineComputed_of_ne {canvas : Canvas} {size : Dimensions} (other : size ≠ canvas.size)
    (row : UInt32) (words : List UInt32) :
    canvas.apply (.lineComputed row size words) = canvas :=
  if_neg other

theorem updates_update (canvas : Canvas) (change : Update) :
    canvas.Updates change (canvas.update change) := by
  have nothing : change.loaded? = none → change.stroke? canvas.size = none →
      canvas.Updates change canvas :=
    .keeps canvas.rendering canvas.elapsed
  match change with
  | .paint row words =>
    by_cases inside : row < canvas.size.height
    · exact .strokes row words rfl (if_pos inside)
    · rw [update, paint_of_le (UInt32.not_lt.1 inside)]
      exact nothing rfl (if_neg inside)
  | .apply (.sceneLoaded size) => exact .loads size rfl
  | .apply (.lineComputed row size words) =>
    by_cases same : size = canvas.size
    · rw [update, apply, if_pos same]
      by_cases inside : row < canvas.size.height
      · exact .strokes row words rfl (if_pos ⟨same, inside⟩)
      · rw [paint_of_le (UInt32.not_lt.1 inside)]
        exact nothing rfl (if_neg fun both => inside both.2)
    · rw [update, apply_lineComputed_of_ne same]
      exact nothing rfl (if_neg fun both => same both.1)
  | .apply (.sceneRendered elapsed) => exact .keeps false (some elapsed) rfl rfl
  | .apply (.evalError _) => exact nothing rfl rfl
  | .apply (.stdoutWritten _) => exact nothing rfl rfl

/-! ## What a canvas shows -/

/-- A canvas of this size has the paint of these strokes on it. -/
structure ShowsStrokes (canvas : Canvas) (size : Dimensions)
    (strokes : List (UInt32 × List UInt32)) : Prop where
  sized : canvas.size = size
  covered : ∀ (row : UInt32) (x : Nat), x < size.width.toNat →
    (canvas.covered row)[x]? = (latest? strokes row x).map .ofPacked
  painted : ∀ row : UInt32, canvas.painted.contains row = true ↔ row ∈ strokedRows strokes
  count : canvas.paintedCount = (strokedRows strokes).card

theorem strokedRows_concat (strokes : List (UInt32 × List UInt32)) (row : UInt32)
    (words : List UInt32) :
    strokedRows (strokes ++ [(row, words)]) = insert row (strokedRows strokes) := by
  ext other
  simp [strokedRows]

/-- A row that was painted before does not count again. -/
theorem paintedCount_paint_of_contains {canvas : Canvas} {row : UInt32}
    (painted : canvas.painted.contains row = true) (words : List UInt32) :
    (canvas.paint row words).paintedCount = canvas.paintedCount := by
  unfold paint
  split
  · simp only [paintedCount, Std.ExtTreeMap.size_insert, painted, if_true]
  · rfl

namespace ShowsStrokes

variable {canvas : Canvas} {size : Dimensions} {strokes : List (UInt32 × List UInt32)}

theorem reset (size : Dimensions) : (reset size).ShowsStrokes size [] where
  sized := rfl
  covered row x _ := by simp [latest?]
  painted row := by simp [Canvas.reset, strokedRows]
  count := rfl

/-- A painted row is one more stroke. -/
theorem paint (shows : canvas.ShowsStrokes size strokes) {row : UInt32} (inside : row < size.height)
    (words : List UInt32) :
    (canvas.paint row words).ShowsStrokes size (strokes ++ [(row, words)]) where
  sized := (size_paint ..).trans shows.sized
  covered other x within := by
    rw [covered_paint, latest?_concat, shows.sized]
    by_cases same : row = other
    · subst same
      have reaches : x < (words.take size.width.toNat).length ↔ x < words.length := by
        rw [List.length_take]
        omega
      rw [if_pos ⟨inside, rfl⟩, getElem?_overlay, shows.covered row x within,
        List.getElem?_take_of_lt within]
      simp only [reaches, true_and]
      split <;> rfl
    · rw [if_neg fun both => same both.2, if_neg fun both => same both.1,
        shows.covered other x within]
  painted other := by
    rw [contains_paint, shows.sized, strokedRows_concat, Finset.mem_insert, ← shows.painted]
    by_cases same : row = other
    · subst same
      simp [inside]
    · simp [same, Ne.symm same]
  count := by
    rw [strokedRows_concat]
    by_cases before : canvas.painted.contains row = true
    · rw [paintedCount_paint_of_contains before, shows.count,
        Finset.insert_eq_of_mem ((shows.painted row).1 before)]
    · have fresh : row ∉ strokedRows strokes := fun there => before ((shows.painted row).2 there)
      rw [paintedCount_paint (shows.sized ▸ inside) (Bool.eq_false_iff.2 before), shows.count,
        Finset.card_insert_of_notMem fresh]

end ShowsStrokes

/-- A canvas shows the strokes since a scene was loaded last. -/
theorem shows_strokes (updates : List Update) :
    (after updates).ShowsStrokes (lastSize updates) (strokes updates) := by
  -- from the last update backwards: it loads a scene, adds a stroke or leaves the paint alone
  induction updates using List.reverseRecOn with
  | nil =>
    have blank := ShowsStrokes.reset ⟨0, 0⟩
    exact ⟨blank.sized, blank.covered, blank.painted, blank.count⟩
  | append_singleton updates last ih =>
    rw [after_concat]
    generalize made : (after updates).update last = next
    cases made ▸ updates_update (after updates) last with
    | loads size loaded =>
      rw [strokes_concat_of_loaded updates loaded, lastSize_concat, loaded]
      exact .reset size
    | strokes row words kept stroke =>
      rw [ih.sized] at stroke
      rw [strokes_concat updates kept, lastSize_concat, kept, stroke]
      exact ih.paint (Update.lt_of_stroke? stroke) words
    | keeps rendering elapsed kept stroke =>
      rw [ih.sized] at stroke
      rw [strokes_concat updates kept, lastSize_concat, kept, stroke]
      exact (List.append_nil _).symm ▸ ⟨ih.sized, ih.covered, ih.painted, ih.count⟩

/-! ## Complete canvases -/

theorem lt_of_mem_strokedRows {updates : List Update} {row : UInt32}
    (stroked : row ∈ strokedRows (strokes updates)) : row < (lastSize updates).height := by
  simp only [strokedRows, strokes, List.mem_toFinset, List.mem_map, List.mem_filterMap] at stroked
  obtain ⟨_, ⟨_, _, stroke⟩, rfl⟩ := stroked
  exact Update.lt_of_stroke? stroke

/-- A canvas is complete when there are as many rows with a stroke on them as it is high. -/
theorem allPainted_iff_card (updates : List Update) :
    (after updates).allPainted = true ↔
      (strokedRows (strokes updates)).card = (lastSize updates).height.toNat := by
  have shows := shows_strokes updates
  have height : (rowsBelow (lastSize updates).height).toFinset.card =
      (lastSize updates).height.toNat := by
    rw [List.toFinset_card_of_nodup (nodup_rowsBelow _)]
    simp [rowsBelow]
  have among : strokedRows (strokes updates) ⊆ (rowsBelow (lastSize updates).height).toFinset :=
    fun row stroked => List.mem_toFinset.2 (mem_rowsBelow.2 (lt_of_mem_strokedRows stroked))
  rw [allPainted_iff, shows.sized, ← height]
  constructor
  · intro all
    refine congrArg Finset.card (among.antisymm fun row below => ?_)
    exact (shows.painted row).1 (all row (mem_rowsBelow.1 (List.mem_toFinset.1 below)))
  · intro whole row below
    rw [shows.painted, Finset.eq_of_subset_of_card_le among whole.ge]
    exact List.mem_toFinset.2 (mem_rowsBelow.2 below)

end RenderFarm.Canvas
