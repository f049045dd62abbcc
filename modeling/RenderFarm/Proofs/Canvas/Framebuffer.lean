import RenderFarm.Proofs.Canvas.Strokes

/-!
# The memory of a canvas

A canvas keeps its colors line by line from the top in one array, and one flag for each row of the
scene from the bottom in another. Every access to either is checked here, so that a step that
reaches outside has no result. `Holds` says that this memory is that of a canvas. Updates keep it
(`Holds.update`), so none of them fails, and the strokes tell what a canvas shows
(`shows_latest_strokes`).
-/

namespace RenderFarm

/-! ## Pictures in memory -/

/-- A picture in memory: its colors line by line from the top, each line from the left. There is
always memory enough for a new one. -/
structure Image where
  size : Dimensions
  colors : Array Color
  whole : colors.size = size.height.toNat * size.width.toNat

namespace Image

def black (size : Dimensions) : Image :=
  ⟨size, .replicate (size.height.toNat * size.width.toNat) .black, Array.size_replicate⟩

/-- Whether column `x` of line `y` lies in the picture. -/
abbrev Inside (image : Image) (x y : Nat) : Prop :=
  x < image.size.width.toNat ∧ y < image.size.height.toNat

theorem index_lt {width height x y : Nat} (column : x < width) (line : y < height) :
    y * width + x < height * width := by
  calc y * width + x < (y + 1) * width := by rw [Nat.succ_mul]; omega
    _ ≤ height * width := Nat.mul_le_mul_right width line

theorem Inside.index_lt {image : Image} {x y : Nat} (inside : image.Inside x y) :
    y * image.size.width.toNat + x < image.colors.size :=
  image.whole ▸ Image.index_lt inside.1 inside.2

/-- The color of a pixel; none outside the picture. -/
def get? (image : Image) (x y : Nat) : Option Color :=
  if image.Inside x y then image.colors[y * image.size.width.toNat + x]? else none

/-- The picture with another color in one pixel; none outside the picture. -/
def put? (image : Image) (x y : Nat) (color : Color) : Option Image :=
  if inside : image.Inside x y then
    some { image with
      colors := image.colors.set (y * image.size.width.toNat + x) color inside.index_lt
      whole := (Array.size_set _).trans image.whole }
  else none

/-- Lays colors on line `y` from column `x` on, as far as the line goes. -/
def fill? (image : Image) (x y : Nat) : List UInt32 → Option Image
  | [] => some image
  | word :: rest =>
    if x < image.size.width.toNat then do
      let image ← image.put? x y (.ofPacked word)
      image.fill? (x + 1) y rest
    else some image

theorem get?_black (size : Dimensions) (x y : Nat) :
    (black size).get? x y =
      if x < size.width.toNat ∧ y < size.height.toNat then some .black else none := by
  rw [get?, black]
  refine ite_congr rfl (fun inside => ?_) fun _ => rfl
  rw [Array.getElem?_replicate, if_pos (index_lt inside.1 inside.2)]

/-- A position tells its column and its line. -/
theorem index_inj {width x y column line : Nat} (inX : x < width) (inColumn : column < width)
    (same : y * width + x = line * width + column) : column = x ∧ line = y := by
  have columns : x = column := by
    have remainders := congrArg (· % width) same
    simpa only [Nat.mul_add_mod_self_right, Nat.mod_eq_of_lt inX, Nat.mod_eq_of_lt inColumn]
      using remainders
  refine ⟨columns.symm, Nat.eq_of_mul_eq_mul_right (Nat.zero_lt_of_lt inX) ?_⟩
  omega

/-- A pixel inside can be changed, and nothing else changes with it. -/
theorem put?_of_inside {image : Image} {x y : Nat} (inside : image.Inside x y) (color : Color) :
    ∃ next, image.put? x y color = some next ∧ next.size = image.size ∧
      ∀ column line, next.get? column line =
        if column = x ∧ line = y then some color else image.get? column line := by
  refine ⟨_, dif_pos inside, rfl, fun column line => ?_⟩
  by_cases there : image.Inside column line
  · simp only [get?, if_pos there, Array.getElem?_set]
    by_cases same : y * image.size.width.toNat + x = line * image.size.width.toNat + column
    · rw [if_pos same, if_pos (index_inj inside.1 there.1 same)]
    · rw [if_neg same, if_neg]
      rintro ⟨rfl, rfl⟩
      exact same rfl
  · rw [get?, if_neg there, get?, if_neg there, if_neg]
    rintro ⟨rfl, rfl⟩
    exact there inside

/-- Colors laid on a line inside reach no pixel outside, and change no other line. -/
theorem fill?_of_lt {image : Image} {y : Nat} (line : y < image.size.height.toNat)
    (words : List UInt32) (x : Nat) :
    ∃ next, image.fill? x y words = some next ∧ next.size = image.size ∧
      ∀ column other, next.get? column other =
        if other = y ∧ column < image.size.width.toNat ∧ x ≤ column ∧ column < x + words.length then
          words[column - x]?.map .ofPacked
        else image.get? column other := by
  induction words generalizing image x with
  | nil => exact ⟨image, rfl, rfl, fun column other => (if_neg (by simp)).symm⟩
  | cons word rest ih =>
    -- the first color stays, for the others begin one column later
    by_cases within : x < image.size.width.toNat
    · obtain ⟨first, put, size, changed⟩ := put?_of_inside ⟨within, line⟩ (.ofPacked word)
      obtain ⟨next, filled, same, shown⟩ := ih (size ▸ line) (x + 1)
      refine ⟨next, ?_, same.trans size, fun column other => ?_⟩
      · rw [fill?, if_pos within, put, Option.bind_eq_bind, Option.bind_some, filled]
      · rw [shown, changed, size, List.length_cons]
        by_cases start : column = x
        · subst start
          simp [within]
        · have reach : (other = y ∧ column < image.size.width.toNat ∧ x + 1 ≤ column ∧
              column < x + 1 + rest.length) ↔ (other = y ∧ column < image.size.width.toNat ∧
              x ≤ column ∧ column < x + (rest.length + 1)) := by omega
          rw [if_neg fun both : column = x ∧ other = y => start both.1]
          simp only [reach]
          refine ite_congr rfl (fun reached => ?_) fun _ => rfl
          rw [show column - x = column - (x + 1) + 1 by omega, List.getElem?_cons_succ]
    · refine ⟨image, by rw [fill?, if_neg within], rfl, fun column other => ?_⟩
      rw [if_neg]
      omega

end Image

/-! ## Canvases in memory -/

/-- A canvas in memory: its picture and, for each row of the scene from the bottom up, whether it
has been painted. -/
structure Framebuffer where
  image : Image
  flags : Array Bool
  rendering : Bool
  elapsed : Option Nat

namespace Framebuffer

def reset (size : Dimensions) : Framebuffer :=
  ⟨.black size, .replicate size.height.toNat false, true, none⟩

def empty : Framebuffer :=
  ⟨.black ⟨0, 0⟩, #[], false, none⟩

/-- The canvas with the flag of a row raised; none if the row has no flag. -/
def mark? (buffer : Framebuffer) (row : UInt32) : Option Framebuffer :=
  if there : row.toNat < buffer.flags.size then
    some { buffer with flags := buffer.flags.set row.toNat true }
  else none

/-- Paints a row of the scene; none if it reaches a pixel or a flag that is not there. -/
def paint? (buffer : Framebuffer) (row : UInt32) (words : List UInt32) : Option Framebuffer :=
  if row < buffer.image.size.height then do
    let line := buffer.image.size.height - 1 - row
    let image ← buffer.image.fill? 0 line.toNat words
    { buffer with image }.mark? row
  else some buffer

def receive? (buffer : Framebuffer) : Event → Option Framebuffer
  | .sceneLoaded size => some (reset size)
  | .lineComputed row size words =>
    if size = buffer.image.size then buffer.paint? row words else some buffer
  | .sceneRendered elapsed => some { buffer with rendering := false, elapsed := some elapsed }
  | .evalError _ | .stdoutWritten _ => some buffer

def update? (buffer : Framebuffer) : Canvas.Update → Option Framebuffer
  | .apply event => buffer.receive? event
  | .paint row words => buffer.paint? row words

/-- A new canvas after some updates, the first one first; none if one of them reached outside. -/
def after? (updates : List Canvas.Update) : Option Framebuffer :=
  updates.foldlM update? empty

def paintedCount (buffer : Framebuffer) : Nat :=
  buffer.flags.count true

def allPainted (buffer : Framebuffer) : Bool :=
  buffer.flags.all id

/-- The color in column `x` of line `y`, or that there is no such pixel; none if it looks for a
color that is not there. -/
def pixel? (buffer : Framebuffer) (x y : UInt32) : Option (Option Color) :=
  if x < buffer.image.size.width ∧ y < buffer.image.size.height then
    (buffer.image.get? x.toNat y.toNat).map some
  else some none

theorem after?_concat (updates : List Canvas.Update) (last : Canvas.Update) :
    after? (updates ++ [last]) = (after? updates).bind (update? · last) := by
  simp [after?]

end Framebuffer

/-! ## The canvas that a memory holds -/

/-- The memory is that of the canvas. -/
structure Framebuffer.Holds (buffer : Framebuffer) (canvas : Canvas) : Prop where
  size : buffer.image.size = canvas.size
  color : ∀ x y : UInt32, buffer.image.get? x.toNat y.toNat = canvas.pixel? x y
  flagCount : buffer.flags.size = canvas.size.height.toNat
  flag : ∀ row : UInt32, row < canvas.size.height →
    buffer.flags[row.toNat]? = some (canvas.painted.contains row)
  count : buffer.paintedCount = canvas.paintedCount
  rendering : buffer.rendering = canvas.rendering
  elapsed : buffer.elapsed = canvas.elapsed

namespace Canvas

theorem toNat_flipped {height y : UInt32} (inside : y < height) :
    (height - 1 - y).toNat = height.toNat - 1 - y.toNat := by
  have bound := height.toNat_lt
  rw [UInt32.lt_iff_toNat_lt] at inside
  rw [UInt32.toNat_sub, UInt32.toNat_sub, UInt32.toNat_one]
  omega

/-- A row lies on line `y` when the line lies as far below the top as the row above the bottom. -/
theorem eq_rowOf_iff {canvas : Canvas} {row y : UInt32} (inside : row < canvas.size.height)
    (line : y < canvas.size.height) :
    row = canvas.rowOf y ↔ y.toNat = (canvas.size.height - 1 - row).toNat := by
  rw [← UInt32.toNat_inj, rowOf, toNat_flipped inside, toNat_flipped line]
  rw [UInt32.lt_iff_toNat_lt] at inside line
  omega

@[simp] theorem rowOf_paint (canvas : Canvas) (row y : UInt32) (words : List UInt32) :
    (canvas.paint row words).rowOf y = canvas.rowOf y := by
  rw [rowOf, rowOf, size_paint]

/-- A painted row changes the pixels of its line that it has colors for. -/
theorem pixel?_paint {canvas : Canvas} {row : UInt32} (inside : row < canvas.size.height)
    (words : List UInt32) (x y : UInt32) :
    (canvas.paint row words).pixel? x y =
      if y.toNat = (canvas.size.height - 1 - row).toNat ∧ x.toNat < canvas.size.width.toNat ∧
          x.toNat < words.length then
        words[x.toNat]?.map .ofPacked
      else canvas.pixel? x y := by
  by_cases there : x < canvas.size.width ∧ y < canvas.size.height
  · obtain ⟨column, line⟩ := there
    have within : x.toNat < canvas.size.width.toNat := UInt32.lt_iff_toNat_lt.1 column
    have reaches : x.toNat < (words.take canvas.size.width.toNat).length ↔
        x.toNat < words.length := by
      rw [List.length_take]
      omega
    simp only [pixel?, size_paint, rowOf_paint, column, line, and_self, if_true, covered_paint,
      inside, true_and, within, ← eq_rowOf_iff inside line]
    by_cases same : row = canvas.rowOf y
    · subst same
      simp only [if_true, true_and, getElem?_overlay, reaches, List.getElem?_take_of_lt within]
      split
      · next reached => simp [reached]
      · rfl
    · simp only [same, if_false, false_and]
  · have outside : ¬ (y.toNat = (canvas.size.height - 1 - row).toNat ∧
        x.toNat < canvas.size.width.toNat ∧ x.toNat < words.length) := by
      rintro ⟨line, column, -⟩
      refine there ⟨UInt32.lt_iff_toNat_lt.2 column, UInt32.lt_iff_toNat_lt.2 ?_⟩
      exact line ▸ UInt32.lt_iff_toNat_lt.1 (flipped_lt inside)
    rw [if_neg outside, pixel?, size_paint, if_neg there, pixel?, if_neg there]

end Canvas

namespace Framebuffer.Holds

open Canvas

variable {buffer : Framebuffer} {canvas : Canvas}

theorem reset (size : Dimensions) : (Framebuffer.reset size).Holds (Canvas.reset size) where
  size := rfl
  color x y := by
    simp [Framebuffer.reset, Image.get?_black, Canvas.pixel?, Canvas.reset, Canvas.covered,
      UInt32.lt_iff_toNat_lt]
  flagCount := Array.size_replicate
  flag row inside := by
    have within : row.toNat < size.height.toNat := UInt32.lt_iff_toNat_lt.1 inside
    simp [Framebuffer.reset, Canvas.reset, within]
  count := by simp [Framebuffer.paintedCount, Framebuffer.reset, Array.count_replicate,
    Canvas.paintedCount, Canvas.reset]
  rendering := rfl
  elapsed := rfl

/-- A raised flag counts once. -/
theorem count_set_flag (holds : buffer.Holds canvas) {row : UInt32}
    (inside : row < canvas.size.height) (there : row.toNat < buffer.flags.size)
    (words : List UInt32) :
    (buffer.flags.set row.toNat true).count true = (canvas.paint row words).paintedCount := by
  have flag := holds.flag row inside
  rw [Array.getElem?_eq_getElem there, Option.some.injEq] at flag
  have count : buffer.flags.count true = canvas.paintedCount := holds.count
  by_cases before : canvas.painted.contains row = true
  · rw [paintedCount_paint_of_contains before, ← count, ← before, ← flag, Array.set_getElem_self]
  · have fresh := Bool.eq_false_iff.2 before
    rw [paintedCount_paint inside fresh, Array.count_set, flag, fresh, ← count]
    rfl

/-- A painted row reaches neither a pixel nor a flag that is not there. -/
theorem paint (holds : buffer.Holds canvas) (row : UInt32) (words : List UInt32) :
    ∃ next, buffer.paint? row words = some next ∧ next.Holds (canvas.paint row words) := by
  by_cases inside : row < canvas.size.height
  · have line : (buffer.image.size.height - 1 - row).toNat < buffer.image.size.height.toNat :=
      UInt32.lt_iff_toNat_lt.1 (flipped_lt (holds.size ▸ inside))
    have there : row.toNat < buffer.flags.size :=
      holds.flagCount ▸ UInt32.lt_iff_toNat_lt.1 inside
    obtain ⟨image, filled, size, shown⟩ := Image.fill?_of_lt line words 0
    refine ⟨{ buffer with image, flags := buffer.flags.set row.toNat true }, ?_, ?_⟩
    · simp [paint?, holds.size ▸ inside, filled, mark?, there]
    · exact {
        size := size.trans (holds.size.trans (size_paint ..).symm)
        color := fun x y => by
          rw [shown, pixel?_paint inside, holds.color, holds.size]
          simp
        flagCount := by rw [Array.size_set, holds.flagCount, size_paint]
        flag := fun other below => by
          rw [size_paint] at below
          rw [contains_paint, Array.getElem?_set]
          by_cases same : row = other
          · subst same
            simp [inside]
          · rw [if_neg fun numbers => same (UInt32.toNat_inj.1 numbers), holds.flag other below]
            simp [same]
        count := holds.count_set_flag inside there words
        rendering := holds.rendering.trans (rendering_paint ..).symm
        elapsed := holds.elapsed.trans (elapsed_paint ..).symm }
  · refine ⟨buffer, by rw [paint?, if_neg (holds.size ▸ inside)], ?_⟩
    rwa [paint_of_le (UInt32.not_lt.1 inside)]

/-- No update reaches a pixel or a flag that is not there. -/
theorem update (holds : buffer.Holds canvas) (change : Update) :
    ∃ next, buffer.update? change = some next ∧ next.Holds (canvas.update change) := by
  match change with
  | .paint row words => exact holds.paint row words
  | .apply (.sceneLoaded size) => exact ⟨_, rfl, .reset size⟩
  | .apply (.lineComputed row size words) =>
    by_cases same : size = canvas.size
    · rw [update?, receive?, if_pos (same.trans holds.size.symm), Canvas.update, apply, if_pos same]
      exact holds.paint row words
    · rw [update?, receive?, if_neg (holds.size ▸ same), Canvas.update, apply_lineComputed_of_ne same]
      exact ⟨buffer, rfl, holds⟩
  | .apply (.sceneRendered elapsed) =>
    exact ⟨_, rfl, { holds with rendering := rfl, elapsed := rfl }⟩
  | .apply (.evalError _) => exact ⟨buffer, rfl, holds⟩
  | .apply (.stdoutWritten _) => exact ⟨buffer, rfl, holds⟩

/-- The memory of a canvas after any updates. -/
theorem after (updates : List Update) :
    ∃ buffer, Framebuffer.after? updates = some buffer ∧ buffer.Holds (Canvas.after updates) := by
  induction updates using List.reverseRecOn with
  | nil =>
    have blank := reset ⟨0, 0⟩
    exact ⟨empty, rfl, { blank with rendering := rfl }⟩
  | append_singleton updates last ih =>
    obtain ⟨buffer, reached, holds⟩ := ih
    rw [after?_concat, reached, after_concat]
    exact holds.update last

/-- No look at a canvas reaches a pixel that is not there. -/
theorem pixel?_eq (holds : buffer.Holds canvas) (x y : UInt32) :
    buffer.pixel? x y = some (canvas.pixel? x y) := by
  rw [Framebuffer.pixel?, holds.color, holds.size, Canvas.pixel?]
  split <;> rfl

theorem allPainted_eq (holds : buffer.Holds canvas) : buffer.allPainted = canvas.allPainted := by
  rw [Bool.eq_iff_iff, allPainted_iff, Framebuffer.allPainted, Array.all_eq_true]
  constructor
  · intro all row inside
    have there : row.toNat < buffer.flags.size :=
      holds.flagCount ▸ UInt32.lt_iff_toNat_lt.1 inside
    have flag := holds.flag row inside
    rw [Array.getElem?_eq_getElem there, Option.some.injEq] at flag
    exact flag ▸ all row.toNat there
  · intro all number there
    have below : number < canvas.size.height.toNat := holds.flagCount ▸ there
    have row : (UInt32.ofNat number).toNat = number := toNat_ofNat_of_lt below
    have inside : UInt32.ofNat number < canvas.size.height := by
      rwa [UInt32.lt_iff_toNat_lt, row]
    have flag := holds.flag _ inside
    rw [row, Array.getElem?_eq_getElem there, Option.some.injEq] at flag
    exact flag.trans (all _ inside)

end Framebuffer.Holds

namespace Canvas

/-- The picture of a canvas, whatever was done to it. None of its updates reached a pixel or a flag
that is not there, and there is a flag for each row. A pixel inside shows the last color that a
stroke laid on it since a scene was loaded, with the top byte of its word left out, and black if
there was none; there are no pixels outside. A line of a scene of another size and a row outside the
canvas change nothing. The rows with a stroke count one each, and the canvas is complete when they
are as many as it is high. -/
theorem shows_latest_strokes (updates : List Update) :
    (∃ buffer, Framebuffer.after? updates = some buffer ∧
      buffer.flags.size = (lastSize updates).height.toNat ∧
      (∀ x y, buffer.pixel? x y = some ((after updates).pixel? x y)) ∧
      buffer.paintedCount = (after updates).paintedCount ∧
      buffer.allPainted = (after updates).allPainted) ∧
    (after updates).size = lastSize updates ∧
    (∀ x y, (after updates).pixel? x y =
      if x < (lastSize updates).width ∧ y < (lastSize updates).height then
        some (((latest? (strokes updates) ((lastSize updates).height - 1 - y) x.toNat).map
          Color.ofPacked).getD .black)
      else none) ∧
    (∀ word, (Color.ofPacked word).pack.toNat = word.toNat % 0x1000000) ∧
    (∀ row size words, size ≠ lastSize updates →
      (after updates).apply (.lineComputed row size words) = after updates) ∧
    (∀ row words, (lastSize updates).height ≤ row →
      (after updates).paint row words = after updates) ∧
    (after updates).paintedCount = (strokedRows (strokes updates)).card ∧
    ((after updates).allPainted = true ↔
      (after updates).paintedCount = (lastSize updates).height.toNat) := by
  obtain ⟨buffer, reached, holds⟩ := Framebuffer.Holds.after updates
  have shows := shows_strokes updates
  refine ⟨⟨buffer, reached, ?flags, holds.pixel?_eq, holds.count, holds.allPainted_eq⟩,
    shows.sized, ?pixel, Color.pack_ofPacked, ?line, ?row, shows.count, ?complete⟩
  case flags => rw [holds.flagCount, shows.sized]
  case pixel =>
    intro x y
    rw [pixel?, shows.sized, rowOf, shows.sized]
    refine ite_congr rfl (fun inside => ?_) fun _ => rfl
    rw [shows.covered _ _ (UInt32.lt_iff_toNat_lt.1 inside.1)]
  case line =>
    intro row size words other
    exact apply_lineComputed_of_ne (shows.sized ▸ other) row words
  case row =>
    intro row words outside
    exact paint_of_le (shows.sized ▸ outside) words
  case complete => rw [allPainted_iff_card, shows.count]

/-- A row that is painted again, with fewer colors than before, keeps the last of the old ones. -/
theorem short_stroke_over_long :
    let updates : List Update := [.apply (.sceneLoaded ⟨2, 3⟩),
      .apply (.lineComputed 0 ⟨2, 3⟩ [0xff0000, 0x0000ff]), .paint 0 [0xaa00ff00]]
    (after updates).pixel? 0 2 = some ⟨0, 255, 0⟩ ∧
      (after updates).pixel? 1 2 = some ⟨0, 0, 255⟩ ∧
      (after updates).pixel? 0 0 = some .black ∧
      (after updates).pixel? 2 0 = none ∧
      (after updates).apply (.lineComputed 1 ⟨4, 4⟩ [1, 1]) = after updates ∧
      (after updates).paint 3 [1] = after updates ∧
      (after updates).paintedCount = 1 ∧ (after updates).allPainted = false := by
  intro updates
  obtain ⟨-, -, pixel, -, line, paint, count, complete⟩ := shows_latest_strokes updates
  refine ⟨(pixel 0 2).trans (by decide), (pixel 1 2).trans (by decide),
    (pixel 0 0).trans (by decide), (pixel 2 0).trans (by decide), line _ _ _ (by decide),
    paint _ _ (by decide), count.trans (by decide), ?_⟩
  rw [Bool.eq_false_iff, ne_eq, complete, count]
  decide

end Canvas

end RenderFarm
