import RenderFarm.Language.Evaluation
import RenderFarm.Proofs.Pool.Loading
import RenderFarm.Proofs.Rendering.Pictured
import RenderFarm.Proofs.Traversal

/-!
# Runs that anybody would see the same

A run evaluates a source text on all workers and renders the scene made of it. What can be seen of a
run is its result, the summary of its render, and a canvas afterwards. For the language of pictures
all of this is a function of the texts alone: `exhibition` says which, without workers and drivers,
and `exhibit_eq` that every farm shows just that, however many workers it has and in whatever order
their drivers move.
-/

namespace RenderFarm

/-- What can be seen of a run. -/
structure Showing where
  result : Except Failure Outcome
  summary : Option RenderSummary
  canvas : Canvas

/-! ## The reference -/

namespace Language

/-- The names bound after a text. -/
def boundAfter (bindings : Bindings) (source : String) : Bindings :=
  (run bindings source).1.bindings

/-- The picture that a text describes, if it makes one and does not fail. -/
def picture? (bindings : Bindings) (source : String) : Option Picture :=
  match (run bindings source).2 with
  | none => (run bindings source).1.scene
  | some _ => none

def outcome (bindings : Bindings) (source : String) : Outcome :=
  match (run bindings source).2 with
  | none => .success (run bindings source).1.text ((picture? bindings source).map Picture.size)
  | some located => .failure located.message

/-- A picture of which every row can be drawn. -/
def Picture.Drawable (picture : Picture) : Prop :=
  ∀ row, row < picture.size.height → (picture.drawRow row).isSome

/-- The colors of a row; none where it cannot be drawn. -/
def Picture.colors (picture : Picture) (row : UInt32) : List UInt32 :=
  (picture.drawRow row).getD []

/-- The texts of a list describe only pictures that can be drawn. -/
def Drawable : Bindings → List String → Prop
  | _, [] => True
  | bindings, source :: rest =>
    (∀ picture ∈ picture? bindings source, picture.Drawable) ∧
      Drawable (boundAfter bindings source) rest

theorem Picture.length_of_drawRow {picture : Picture} {row : UInt32} {colors : List UInt32}
    (drawn : picture.drawRow row = some colors) : colors.length = picture.size.width.toNat := by
  unfold drawRow at drawn
  split at drawn
  · cases drawn
    exact List.length_replicate
  · exact (length_of_mapM drawn).trans List.length_range
  · cases drawn
    exact List.length_replicate

/-- What a worker makes of a text. -/
theorem answer?_evaluate (bindings : Bindings) (scene : Option Picture) (source : String) :
    ∃ held, Worker.answer? bindings scene (.evaluate source) =
        some (.outcome (outcome bindings source), boundAfter bindings source, held) ∧
      ∀ picture ∈ picture? bindings source, held = some picture := by
  cases fault : (run bindings source).2 with
  | none =>
      refine ⟨(run bindings source).1.scene.or scene, ?_, ?_⟩
      · simp only [Worker.answer?, Evaluator.evaluate, evaluate, fault, outcome, picture?, boundAfter]
        rfl
      · intro picture made
        simp only [picture?, fault] at made
        rw [made]
        rfl
  | some located =>
      refine ⟨none, ?_, ?_⟩
      · simp only [Worker.answer?, Evaluator.evaluate, evaluate, fault, outcome, boundAfter]
      · intro picture made
        simp only [picture?, fault] at made
        cases made

/-- What can be seen of a run that finds these names bound and this canvas. -/
def showing (bindings : Bindings) (canvas : Canvas) (source : String) : Showing :=
  let made := picture? bindings source
  ⟨.ok (outcome bindings source), made.map fun picture => ⟨picture.size.height.toNat, false⟩,
    (made.map fun picture => Canvas.ofScene picture.colors picture.size 0).getD canvas⟩

/-- What can be seen of several runs. -/
def exhibition : Bindings → Canvas → List String → List Showing
  | _, _, [] => []
  | bindings, canvas, source :: rest =>
    let shown := showing bindings canvas source
    shown :: exhibition (boundAfter bindings source) shown.canvas rest

end Language

/-! ## Runs -/

namespace Farm

variable {ε σ Audience : Type} [Scene σ] [Evaluator ε σ]

/-- A run whose drivers first move as scheduled; gives the summary of its render, if any, too. -/
def runAlong (listeners : Listeners ε σ Audience) (schedule : List Nat) (farm : Farm ε σ Audience)
    (source : String) :
    (Except Failure Outcome × Option RenderSummary) × Farm ε σ Audience :=
  match farm.evaluate listeners source with
  | (.error failure, farm) => ((.error failure, none), farm)
  | (.ok outcome, farm) =>
    match outcome.scene with
    | some size =>
      let (summary, farm) := farm.renderAlong listeners schedule size
      ((.ok outcome, some summary), farm)
    | none => ((.ok outcome, none), farm)

/-- Without a schedule it is a run like any other. -/
theorem runAlong_nil (listeners : Listeners ε σ Audience) (farm : Farm ε σ Audience)
    (source : String) :
    ((farm.runAlong listeners [] source).1.1, (farm.runAlong listeners [] source).2) =
      farm.run listeners source := by
  cases evaluated : farm.evaluate listeners source with
  | mk result after =>
      cases result with
      | error failure => simp only [runAlong, run, evaluated]
      | ok outcome =>
          simp only [runAlong, run, evaluated]
          cases outcome.scene with
          | none => rfl
          | some size => rfl

end Farm

open RenderFarm.Language

variable {Audience : Type}

theorem Language.scene_outcome (bindings : Bindings) (source : String) :
    (outcome bindings source).scene = (picture? bindings source).map Picture.size := by
  cases fault : (run bindings source).2 with
  | none => simp only [outcome, fault, Outcome.scene]
  | some located => simp only [outcome, picture?, fault, Outcome.scene, Option.map_none]

section Shared

variable {listeners : Listeners Bindings Picture Audience} {id : SubscriptionId}
  {canvas : Audience → Canvas} (exhibits : listeners.Exhibits id canvas)
  (takesNotes : listeners.TakesNotes)
include exhibits takesNotes

/-- A run on workers that agree shows what the reference says, and they agree again. -/
theorem Farm.runAlong_agreed {farm : Farm Bindings Picture Audience} {bindings : Bindings}
    {scene : Option Picture} (manned : 0 < farm.workers.size) (agrees : farm.Agrees bindings scene)
    (attached : farm.bus.Lists ⟨id, .render, .callback⟩) {source : String}
    (drawable : ∀ picture ∈ picture? bindings source, picture.Drawable) (schedule : List Nat) :
    let shown := showing bindings (canvas farm.audience) source
    let after := (farm.runAlong listeners schedule source).2
    (farm.runAlong listeners schedule source).1 = (shown.result, shown.summary) ∧
      canvas after.audience = shown.canvas ∧ after.bus.Lists ⟨id, .render, .callback⟩ ∧
      after.workers.size = farm.workers.size ∧
      ∃ held, after.Agrees (boundAfter bindings source) held := by
  intro shown after
  have retains := takesNotes.retains ⟨id, .render, .callback⟩
  obtain ⟨held, answer, holds⟩ := answer?_evaluate bindings scene source
  obtain ⟨result, size, agree⟩ :=
    Farm.evaluate_agreed takesNotes.spareWorkers answer manned agrees
  -- Nothing that an evaluation publishes shows on the canvas.
  have lists := retains.keeps.evaluate source (fun _ _ lists => retains.publish _ lists) attached
  have same := (exhibits.feeds.keeps Event.isOfRender_stdoutWritten (canvas farm.audience)).evaluate
    source (fun other message same => (exhibits.feeds.publish_of_unpicked
      (Event.isOfRender_evalError message) other).trans same) rfl
  cases evaluated : farm.evaluate listeners source with
  | mk first evaluatedFarm =>
      rw [evaluated] at result size agree lists same
      obtain rfl := result
      cases made : picture? bindings source with
      | none =>
          have ran : farm.runAlong listeners schedule source =
              ((.ok (outcome bindings source), none), evaluatedFarm) := by
            simp only [Farm.runAlong, evaluated, scene_outcome, made, Option.map_none]
          simp only [after, shown, ran, showing, made, Option.map_none, Option.getD_none]
          exact ⟨trivial, same, lists, size, held, agree⟩
      | some picture =>
          have colored : ∀ row, row < (Scene.size picture).height →
              Scene.drawRow picture row = some (picture.colors row, picture) := by
            intro row inside
            obtain ⟨colors, drawn⟩ := Option.isSome_iff_exists.1 (drawable picture made row inside)
            simp only [Scene.drawRow, Picture.colors, drawn, Option.map_some, Option.getD_some]
          rw [holds picture made] at agree
          obtain ⟨summary, sizes, agreed, lists, painted⟩ :=
            Farm.renderAlong_pictured exhibits takesNotes (size ▸ manned) agree lists colored schedule
          have counted : (evaluatedFarm.renderAlong listeners schedule picture.size).1 =
              ⟨picture.size.height.toNat, false⟩ :=
            summary
          have ran : farm.runAlong listeners schedule source =
              ((.ok (outcome bindings source), some ⟨picture.size.height.toNat, false⟩),
                (evaluatedFarm.renderAlong listeners schedule picture.size).2) := by
            simp only [Farm.runAlong, evaluated, scene_outcome, made, Option.map_some]
            rw [counted]
          simp only [after, shown, ran, showing, made, Option.map_some, Option.getD_some]
          exact ⟨trivial, painted, lists, sizes.trans size, some picture, agreed⟩

/-- A run in which the drivers take turns is among them. -/
theorem Farm.run_agreed {farm : Farm Bindings Picture Audience} {bindings : Bindings}
    {scene : Option Picture} (manned : 0 < farm.workers.size) (agrees : farm.Agrees bindings scene)
    (attached : farm.bus.Lists ⟨id, .render, .callback⟩) {source : String}
    (drawable : ∀ picture ∈ picture? bindings source, picture.Drawable) :
    (farm.run listeners source).1 = (showing bindings (canvas farm.audience) source).result ∧
      canvas (farm.run listeners source).2.audience =
        (showing bindings (canvas farm.audience) source).canvas := by
  obtain ⟨result, painted, -⟩ :=
    Farm.runAlong_agreed exhibits takesNotes manned agrees attached drawable []
  rw [← Farm.runAlong_nil]
  exact ⟨congrArg Prod.fst result, painted⟩

omit exhibits takesNotes in
variable (listeners canvas) in
/-- What can be seen of runs that begin with run number `number`, each with its own schedule. -/
def Listeners.exhibit (schedule : Nat → List Nat) :
    Nat → List String → Farm Bindings Picture Audience → List Showing
  | _, [], _ => []
  | number, source :: rest, farm =>
    let (shown, after) := farm.runAlong listeners (schedule number) source
    ⟨shown.1, shown.2, canvas after.audience⟩ :: exhibit schedule (number + 1) rest after

/-- Workers that agree show the exhibition, along every schedule. -/
theorem Listeners.exhibit_eq (schedule : Nat → List Nat) {sources : List String} (number : Nat)
    {farm : Farm Bindings Picture Audience} {bindings : Bindings} {scene : Option Picture}
    (manned : 0 < farm.workers.size) (agrees : farm.Agrees bindings scene)
    (attached : farm.bus.Lists ⟨id, .render, .callback⟩) (drawable : Drawable bindings sources) :
    listeners.exhibit canvas schedule number sources farm =
      exhibition bindings (canvas farm.audience) sources := by
  induction sources generalizing number farm bindings scene with
  | nil => rfl
  | cons source rest ih =>
      obtain ⟨seen, shown, still, size, held, agree⟩ := Farm.runAlong_agreed exhibits takesNotes manned
        agrees attached drawable.1 (schedule number)
      have later := ih (number + 1) (size ▸ manned) agree still drawable.2
      simp only [exhibit, exhibition, later, seen, shown]

end Shared

/-- What the exhibition shows of the text behind some others. -/
theorem Language.getElem?_exhibition (before : List String) (source : String) (rest : List String)
    (bindings : Bindings) (canvas : Canvas) :
    ∃ found, (exhibition bindings canvas (before ++ source :: rest))[before.length]? =
      some (showing (before.foldl boundAfter bindings) found source) := by
  induction before generalizing bindings canvas with
  | nil => exact ⟨canvas, rfl⟩
  | cons first before ih => exact ih _ _

theorem Language.Drawable.of_append {before : List String} {source : String} {rest : List String}
    {bindings : Bindings} (drawable : Drawable bindings (before ++ source :: rest)) :
    ∀ picture ∈ picture? (before.foldl boundAfter bindings) source, picture.Drawable := by
  induction before generalizing bindings with
  | nil => exact drawable.1
  | cons first before ih => exact ih drawable.2

/-- A text that describes a picture is shown as that picture, upside down and complete. -/
theorem Language.showing_picture {bindings : Bindings} {canvas : Canvas} {source : String}
    {picture : Picture} (made : picture? bindings source = some picture)
    (drawable : picture.Drawable) :
    (showing bindings canvas source).summary = some ⟨picture.size.height.toNat, false⟩ ∧
      (showing bindings canvas source).canvas.size = picture.size ∧
      (showing bindings canvas source).canvas.allPainted = true ∧
      ∀ y, y < picture.size.height →
        ∃ colors, picture.drawRow (picture.size.height - 1 - y) = some colors ∧
          (showing bindings canvas source).canvas.line y = colors.map .ofPacked := by
  simp only [showing, made, Option.map_some, Option.getD_some]
  refine ⟨trivial, Canvas.size_ofScene _, Canvas.allPainted_ofScene _, fun y inside => ?_⟩
  obtain ⟨colors, line⟩ := Option.isSome_iff_exists.1 (drawable _ (Canvas.flipped_lt inside))
  have colored : picture.colors (picture.size.height - 1 - y) = colors := by
    rw [Picture.colors, line, Option.getD_some]
  have whole := Picture.length_of_drawRow line
  rw [← colored] at whole
  exact ⟨colors, line, colored ▸ Canvas.line_ofScene picture.colors inside whole⟩

/-- Runs on two pools, whatever their sizes and the orders in which drivers move, show the same on a
canvas. A text that describes a picture is rendered row by row, and leaves a complete canvas of its size
whose line `y` is the row `y` below the top. -/
theorem runs_show_the_same {listeners : Listeners Bindings Picture Audience} {id : SubscriptionId}
    {canvas : Audience → Canvas} (exhibits : listeners.Exhibits id canvas)
    (takesNotes : listeners.TakesNotes) {sources : List String} (drawable : Drawable .empty sources)
    {a b : Farm Bindings Picture Audience} {nowA nowB : Nat} {configA configB : Pool.Config}
    {observerA observerB : Nat → Option String} {effectsA effectsB : List Effect}
    (spawnedA : Pool.spawn nowA configA observerA (fun _ => .engine .empty) =
      .ok (a.workers, effectsA))
    (spawnedB : Pool.spawn nowB configB observerB (fun _ => .engine .empty) =
      .ok (b.workers, effectsB))
    (attachedA : a.bus.Lists ⟨id, .render, .callback⟩)
    (attachedB : b.bus.Lists ⟨id, .render, .callback⟩)
    (same : canvas a.audience = canvas b.audience) (scheduleA scheduleB : Nat → List Nat) :
    listeners.exhibit canvas scheduleA 0 sources a = listeners.exhibit canvas scheduleB 0 sources b ∧
      ∀ before source rest, sources = before ++ source :: rest →
        ∀ picture ∈ picture? (before.foldl boundAfter .empty) source,
          ∃ shown, (listeners.exhibit canvas scheduleA 0 sources a)[before.length]? = some shown ∧
            shown.summary = some ⟨picture.size.height.toNat, false⟩ ∧
            shown.canvas.size = picture.size ∧ shown.canvas.allPainted = true ∧
            ∀ y, y < picture.size.height →
              ∃ colors, picture.drawRow (picture.size.height - 1 - y) = some colors ∧
                shown.canvas.line y = colors.map .ofPacked := by
  have agreed : ∀ {farm : Farm Bindings Picture Audience} {now : Nat} {config : Pool.Config}
      {observer : Nat → Option String} {effects : List Effect},
      Pool.spawn now config observer (fun _ => .engine .empty) = .ok (farm.workers, effects) →
      0 < farm.workers.size ∧ farm.Agrees .empty none := by
    intro farm now config observer effects spawned
    obtain ⟨workers, _, started, size, rest⟩ :=
      Pool.spawn_engine (σ := Picture) now config observer Bindings.empty
    rw [spawned] at started
    cases started
    exact ⟨by rw [size, Pool.Config.size]; omega, rest⟩
  obtain ⟨mannedA, agreesA⟩ := agreed spawnedA
  obtain ⟨mannedB, agreesB⟩ := agreed spawnedB
  have shownA :=
    Listeners.exhibit_eq exhibits takesNotes scheduleA 0 mannedA agreesA attachedA drawable
  have shownB :=
    Listeners.exhibit_eq exhibits takesNotes scheduleB 0 mannedB agreesB attachedB drawable
  refine ⟨by rw [shownA, shownB, same], ?_⟩
  rintro before source rest rfl picture made
  obtain ⟨found, shown⟩ := getElem?_exhibition before source rest .empty (canvas a.audience)
  have drawn := Drawable.of_append drawable picture made
  exact ⟨_, shownA ▸ shown, showing_picture made drawn⟩

/-- A pool on a farm with an empty canvas. -/
def easel (workers : Array (Worker Bindings Picture)) : Farm Bindings Picture Canvas :=
  { Farm.start 0 workers Canvas.empty with bus := (EventBus.empty.subscribe .render).2 }

/-- One worker and three, the drivers of the three in some order before they take turns. -/
theorem one_and_three_show_the_same :
    ∃ one three : Farm Bindings Picture Canvas, one.workers.size = 1 ∧ three.workers.size = 3 ∧
      let shows := Listeners.painting.exhibit fun canvas => canvas
      shows (fun _ => []) 0 ["scene 1 2", "x = 1"] one =
        shows (fun _ => [2, 0, 2, 1]) 0 ["scene 1 2", "x = 1"] three ∧
      ∃ shown, (shows (fun _ => []) 0 ["scene 1 2", "x = 1"] one)[0]? = some shown ∧
        shown.summary = some ⟨2, false⟩ := by
  have made : picture? .empty "scene 1 2" = some ⟨⟨1, 2⟩, .gradient⟩ := by decide +kernel
  have unmade : picture? (boundAfter .empty "scene 1 2") "x = 1" = none := by decide +kernel
  have drawable : Drawable .empty ["scene 1 2", "x = 1"] := by
    refine ⟨fun picture described => ?_, fun picture described => ?_, trivial⟩
    · rw [made] at described
      cases described
      exact fun _ _ => rfl
    · rw [unmade] at described
      cases described
  obtain ⟨one, _, spawnedOne, sizeOne, -⟩ :=
    Pool.spawn_engine (σ := Picture) 0 ⟨1, 100, ""⟩ (fun _ => none) Bindings.empty
  obtain ⟨three, _, spawnedThree, sizeThree, -⟩ :=
    Pool.spawn_engine (σ := Picture) 0 ⟨3, 100, ""⟩ (fun _ => none) Bindings.empty
  have attached : (EventBus.empty.subscribe .render).2.Lists ⟨⟨0⟩, .render, .callback⟩ := by decide
  obtain ⟨same, shows⟩ := @runs_show_the_same _ _ _ _ Listeners.painting_exhibits
    Listeners.painting_takesNotes _ drawable (easel one) (easel three) 0 0 _ _ _ _ _ _ spawnedOne
    spawnedThree attached attached rfl (fun _ => []) (fun _ => [2, 0, 2, 1])
  obtain ⟨shown, first, summary, -⟩ := shows [] "scene 1 2" ["x = 1"] rfl _ made
  exact ⟨easel one, easel three, sizeOne, sizeThree, same, shown, first, summary⟩

end RenderFarm
