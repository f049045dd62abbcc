import RenderFarm.Proofs.RenderCall.Cancellation
import RenderFarm.Proofs.RenderCall.Succession
import RenderFarm.Proofs.RenderCall.Whole

/-!
# When a render is active

In a succession of calls of render the active render is that of the call under way (`Orderly`), so that a
farm says that it is rendering from the moment when a call begins to that when its render withdraws: while
it is told that the scene was loaded and while lines are published, and no longer while it is told that the
scene was rendered, unless the next call has begun by then (`rendering_iff_under_way`). A cancel finds the
active render only, and the cursor of no other ever changes.
-/

namespace RenderFarm

open RenderFarm.Language

variable {ε σ Audience : Type}

namespace RenderCall

/-- What a call of a succession keeps to. -/
structure Behaves (farm : Farm ε σ Audience) (call : RenderCall ε σ Audience) : Prop where
  runs : ∃ size p, (call.setFarm farm).Runs size p
  free : call.stage.isUnderWay = false → call.rendering.cancelling = none
  announces : call.stage.Announces

/-- A change of the farm does not matter to a call whose cursor stays, or is cancelled. -/
theorem Behaves.of_cursor {farm after : Farm ε σ Audience} {call : RenderCall ε σ Audience}
    (behaves : call.Behaves farm)
    (kept : ∀ cursor ∈ farm.cursors[call.rendering.number]?,
      ∃ later ∈ after.cursors[call.rendering.number]?, later = cursor ∨ later = cursor.cancel) :
    call.Behaves after := by
  obtain ⟨size, p, runs⟩ := behaves.runs
  obtain ⟨later, there, left⟩ := kept p.cursor runs.shows.cursor
  exact ⟨⟨size, _, (runs.setFarm there left).1⟩, behaves.free, behaves.announces⟩

theorem Runs.step_respectful [Scene σ] [Evaluator ε σ] {listeners : Listeners ε σ Audience}
    {call : RenderCall ε σ Audience} {size : Dimensions} {p : Progress} (runs : call.Runs size p)
    (respectful : listeners.Respectful) {move : Move ε σ Audience} (others : move.Respectful) :
    ∃ q, (call.step listeners move).Runs size q := by
  have taken : move.Spares call.rendering.number →
      ∃ q, (call.step listeners move).Runs size q := fun spares =>
    have ⟨q, after, _⟩ := runs.step (respectful.mayCancel _) spares
    ⟨q, after⟩
  cases move with
  | drive | cancel | close => exact taken trivial
  | meanwhile change =>
      obtain ⟨later, there, kept⟩ := (others call.farm).cursors _ _ runs.shows.cursor
      exact ⟨_, (runs.setFarm there (kept.imp_right And.right)).1⟩

theorem Behaves.number_lt {farm : Farm ε σ Audience} {call : RenderCall ε σ Audience}
    (behaves : call.Behaves farm) : call.rendering.number < farm.cursors.size := by
  obtain ⟨size, p, runs⟩ := behaves.runs
  exact (Array.getElem?_eq_some_iff.1 runs.shows.cursor).1

end RenderCall

namespace Succession

/-- The active render is that of the call under way, which is the last. -/
structure Orderly (succession : Succession ε σ Audience) : Prop where
  behaves : ∀ (number : Nat) (call : RenderCall ε σ Audience),
    succession.calls[number]? = some call → call.Behaves succession.farm
  apart : ∀ (number other : Nat) (call call' : RenderCall ε σ Audience),
    succession.calls[number]? = some call → succession.calls[other]? = some call' →
      call.rendering.number = call'.rendering.number → number = other
  last : ∀ (number : Nat) (call : RenderCall ε σ Audience), succession.calls[number]? = some call →
    call.stage.isUnderWay = true → number + 1 = succession.calls.length
  active : ∀ render, succession.farm.active = some render ↔
    ∃ (number : Nat) (call : RenderCall ε σ Audience), succession.calls[number]? = some call ∧
      call.stage.isUnderWay = true ∧ call.rendering.number = render

theorem start_orderly {farm : Farm ε σ Audience} (idle : farm.active = none) : (start farm).Orderly where
  behaves := by simp [start]
  apart := by simp [start]
  last := by simp [start]
  active := by simp [start, idle]

/-- When a call is added, each call found is the new one or was there before. -/
theorem getElem?_concat_cases {calls : List (RenderCall ε σ Audience)} {number : Nat}
    {next call : RenderCall ε σ Audience} (found : (calls ++ [next])[number]? = some call) :
    calls[number]? = some call ∨ number = calls.length ∧ call = next := by
  obtain ⟨inside, -⟩ := List.getElem?_eq_some_iff.1 found
  rw [List.length_append, List.length_singleton] at inside
  rcases Nat.lt_or_eq_of_le (Nat.le_of_lt_succ inside) with before | rfl
  · rw [List.getElem?_append_left before] at found
    exact .inl found
  · exact .inr ⟨rfl, by simpa using found.symm⟩

/-- When one call is replaced, each call found is the new one or was there before. -/
theorem getElem?_set_cases {calls : List (RenderCall ε σ Audience)} {number other : Nat}
    {next call : RenderCall ε σ Audience} (found : (calls.set number next)[other]? = some call) :
    other = number ∧ call = next ∨ other ≠ number ∧ calls[other]? = some call := by
  by_cases own : other = number
  · subst own
    obtain ⟨inside, rfl⟩ := List.getElem?_eq_some_iff.1 found
    exact .inl ⟨rfl, List.getElem_set_self inside⟩
  · rw [List.getElem?_set_ne (Ne.symm own)] at found
    exact .inr ⟨own, found⟩

section Steps

variable {listeners : Listeners ε σ Audience} {succession : Succession ε σ Audience}
  (orderly : succession.Orderly)
include orderly

/-- A farm is rendering when a call is under way. -/
theorem Orderly.isRendering_iff : succession.farm.isRendering = true ↔
    ∃ call ∈ succession.calls, call.stage.isUnderWay = true := by
  rw [Farm.isRendering, Option.isSome_iff_exists]
  constructor
  · rintro ⟨render, active⟩
    obtain ⟨number, call, found, running, -⟩ := (orderly.active render).1 active
    exact ⟨call, List.mem_of_getElem? found, running⟩
  · rintro ⟨call, member, running⟩
    obtain ⟨number, found⟩ := List.getElem?_of_mem member
    exact ⟨_, (orderly.active _).2 ⟨number, call, found, running, rfl⟩⟩

/-- The render of a call that is over is not the active one. -/
theorem Orderly.inactive {number : Nat} {call : RenderCall ε σ Audience}
    (found : succession.calls[number]? = some call) (ended : call.stage.isUnderWay = false) :
    succession.farm.active ≠ some call.rendering.number := by
  intro active
  obtain ⟨other, call', found', running, same⟩ := (orderly.active _).1 active
  obtain rfl := orderly.apart _ _ _ _ found' found same
  obtain rfl := Option.some.inj (found.symm.trans found')
  rw [ended] at running
  cases running

/-- Of two calls one is over. -/
theorem Orderly.inactive_of_ne {number other : Nat} {call call' : RenderCall ε σ Audience}
    (found : succession.calls[number]? = some call) (found' : succession.calls[other]? = some call')
    (different : other ≠ number) (active : succession.farm.active = some call.rendering.number) :
    succession.farm.active ≠ some call'.rendering.number := by
  intro active'
  have same : call'.rendering.number = call.rendering.number :=
    Option.some.inj (active'.symm.trans active)
  exact different (orderly.apart _ _ _ _ found' found same)

/-- When a call is over, and no newer one is under way, no render is active. -/
theorem Orderly.not_rendering {number : Nat} {call : RenderCall ε σ Audience}
    (found : succession.calls[number]? = some call) (ended : call.stage.isUnderWay = false)
    (newest : succession.IsNewest number) : succession.farm.isRendering = false := by
  rw [Bool.eq_false_iff, Ne, orderly.isRendering_iff]
  rintro ⟨other, member, running⟩
  obtain ⟨index, there⟩ := List.getElem?_of_mem member
  have last := orderly.last _ _ there running
  obtain ⟨inside, -⟩ := List.getElem?_eq_some_iff.1 found
  rcases Nat.lt_or_eq_of_le (Nat.le_of_lt_succ (last ▸ inside)) with before | rfl
  · have behind : other ∈ succession.calls.drop (number + 1) := by
      refine List.mem_of_getElem? (?_ : _[index - (number + 1)]? = _)
      rw [List.getElem?_drop, Nat.add_sub_cancel' before]
      exact there
    rw [newest other behind] at running
    cases running
  · obtain rfl := Option.some.inj (found.symm.trans there)
    rw [ended] at running
    cases running

/-- While a call publishes an event, the farm answers as is due. -/
theorem Orderly.answers {number : Nat} {call : RenderCall ε σ Audience}
    (found : succession.calls[number]? = some call) {event : Event} (publishes : call.Publishes event) :
    succession.Answers number event := by
  have behaves := orderly.behaves number call found
  obtain ⟨size, p, runs⟩ := behaves.runs
  have publishes' : (call.setFarm succession.farm).Publishes event := publishes
  rcases publishes'.cases runs behaves.announces with ⟨running, event⟩ | ⟨ended, elapsed, rfl⟩
  · have rendering : succession.farm.isRendering = true :=
      orderly.isRendering_iff.2 ⟨call, List.mem_of_getElem? found, running⟩
    rcases event with ⟨size, rfl⟩ | ⟨row, size, colors, rfl⟩ <;> exact rendering
  · exact fun newest => orderly.not_rendering found ended newest

omit orderly in
/-- A call begins with a new cursor and leaves the others alone. -/
theorem kept_by_start {farm : Farm ε σ Audience} (size : Dimensions) {render : Nat} {cursor : RowCursor}
    (held : cursor ∈ farm.cursors[render]?) :
    cursor ∈ (RenderCall.start farm size).farm.cursors[render]? := by
  obtain ⟨inside, -⟩ := Array.getElem?_eq_some_iff.1 held
  have pushed : (RenderCall.start farm size).farm.cursors = farm.cursors.push (.start size) := rfl
  rwa [pushed, Array.getElem?_push_lt inside, ← Array.getElem?_eq_getElem inside]

theorem Orderly.begin (ended : succession.calls.any (·.stage.isUnderWay) = false) (size : Dimensions) :
    Orderly ⟨(RenderCall.start succession.farm size).farm,
      succession.calls ++ [RenderCall.start succession.farm size]⟩ := by
  have old : ∀ (number : Nat) call, succession.calls[number]? = some call →
      call.stage.isUnderWay = false := fun number call found =>
    Bool.eq_false_iff.2 (List.any_eq_false.1 ended call (List.mem_of_getElem? found))
  have there : (succession.calls ++ [RenderCall.start succession.farm size])[succession.calls.length]? =
      some (RenderCall.start succession.farm size) := by simp
  have fresh : ∀ (number : Nat) (call : RenderCall ε σ Audience),
      succession.calls[number]? = some call →
        call.rendering.number ≠ (RenderCall.start succession.farm size).rendering.number :=
    fun number call found => Nat.ne_of_lt (orderly.behaves number call found).number_lt
  constructor
  · intro number call found
    rcases getElem?_concat_cases found with before | ⟨-, rfl⟩
    · refine (orderly.behaves number call before).of_cursor fun cursor held => ⟨cursor, ?_, .inl rfl⟩
      exact kept_by_start size held
    · exact ⟨⟨size, _, RenderCall.start_runs succession.farm size⟩, nofun, ⟨size, rfl⟩⟩
  · intro number other call call' found found' same
    rcases getElem?_concat_cases found with before | ⟨rfl, rfl⟩ <;>
      rcases getElem?_concat_cases found' with before' | ⟨rfl, rfl⟩
    · exact orderly.apart _ _ _ _ before before' same
    · exact absurd same (fresh _ _ before)
    · exact absurd same.symm (fresh _ _ before')
    · rfl
  · intro number call found running
    rcases getElem?_concat_cases found with before | ⟨rfl, -⟩
    · rw [old _ _ before] at running
      cases running
    · simp
  · intro render
    constructor
    · intro active
      exact ⟨_, _, there, rfl, Option.some.inj active⟩
    · rintro ⟨number, call, found, running, rfl⟩
      rcases getElem?_concat_cases found with before | ⟨-, rfl⟩
      · rw [old _ _ before] at running
        cases running
      · rfl

/-- What is to be shown when one call takes a step. -/
theorem Orderly.replace {number : Nat} {call next : RenderCall ε σ Audience}
    (found : succession.calls[number]? = some call)
    (same : next.rendering.number = call.rendering.number) (behaves : next.Behaves next.farm)
    (others : ∀ (other : Nat) (call' : RenderCall ε σ Audience), other ≠ number →
      succession.calls[other]? = some call' →
        ∀ cursor ∈ succession.farm.cursors[call'.rendering.number]?,
          ∃ later ∈ next.farm.cursors[call'.rendering.number]?, later = cursor ∨ later = cursor.cancel)
    (active : next.stage.isUnderWay = call.stage.isUnderWay ∧
        next.farm.active = succession.farm.active ∨
      call.stage.isUnderWay = true ∧ next.stage.isUnderWay = false ∧ next.farm.active = none) :
    Orderly ⟨next.farm, succession.calls.set number next⟩ := by
  obtain ⟨inside, -⟩ := List.getElem?_eq_some_iff.1 found
  have there : (succession.calls.set number next)[number]? = some next :=
    List.getElem?_set_self inside
  constructor
  · intro other call' found'
    rcases getElem?_set_cases found' with ⟨rfl, rfl⟩ | ⟨different, before⟩
    · exact behaves
    · exact (orderly.behaves _ _ before).of_cursor (others _ _ different before)
  · intro one other call₁ call₂ found₁ found₂ equal
    rcases getElem?_set_cases found₁ with ⟨rfl, rfl⟩ | ⟨-, before₁⟩ <;>
      rcases getElem?_set_cases found₂ with ⟨rfl, rfl⟩ | ⟨-, before₂⟩
    · rfl
    · exact orderly.apart _ _ _ _ found before₂ (same.symm.trans equal)
    · exact orderly.apart _ _ _ _ before₁ found (equal.trans same)
    · exact orderly.apart _ _ _ _ before₁ before₂ equal
  · intro other call' found' running
    rw [List.length_set]
    rcases getElem?_set_cases found' with ⟨rfl, rfl⟩ | ⟨-, before⟩
    · rcases active with ⟨still, -⟩ | ⟨-, ended, -⟩
      · exact orderly.last _ _ found (still ▸ running)
      · cases ended.symm.trans running
    · exact orderly.last _ _ before running
  · intro render
    constructor
    · intro rendering
      rcases active with ⟨still, unchanged⟩ | ⟨-, -, none⟩
      · obtain ⟨other, call', found', running, rfl⟩ := (orderly.active _).1 (unchanged ▸ rendering)
        by_cases own : other = number
        · subst own
          obtain rfl := Option.some.inj (found.symm.trans found')
          exact ⟨other, next, there, still.trans running, same⟩
        · exact ⟨other, call', (List.getElem?_set_ne (Ne.symm own)).trans found', running, rfl⟩
      · cases none.symm.trans rendering
    · rintro ⟨other, call', found', running', rfl⟩
      rcases getElem?_set_cases found' with ⟨rfl, rfl⟩ | ⟨different, before⟩ <;>
        rcases active with ⟨still, unchanged⟩ | ⟨running, ended, -⟩
      · exact unchanged.trans ((orderly.active _).2 ⟨other, call, found, still ▸ running', same.symm⟩)
      · cases ended.symm.trans running'
      · exact unchanged.trans ((orderly.active _).2 ⟨other, call', before, running', rfl⟩)
      · -- Only the last call can be under way, and it was this one.
        have last := orderly.last _ _ found running
        have last' := orderly.last _ _ before running'
        exact absurd (Nat.succ.inj (last'.trans last.symm)) different

variable [Scene σ] [Evaluator ε σ] (respectful : listeners.Respectful)
include respectful

/-- The active render is the only one whose cursor changes while a call takes a step, and it is active as
long as the call is under way. -/
theorem Orderly.advance {number : Nat} {call next : RenderCall ε σ Audience}
    (found : succession.calls[number]? = some call) {move : RenderCall.Move ε σ Audience}
    (others : move.Respectful) (stepped : (call.setFarm succession.farm).step listeners move = next) :
    Orderly ⟨next.farm, succession.calls.set number next⟩ ∧
      ∀ render, succession.farm.active ≠ some render →
        ∀ cursor ∈ succession.farm.cursors[render]?, cursor ∈ next.farm.cursors[render]? := by
  have behaves := orderly.behaves number call found
  obtain ⟨size, p, runs⟩ := behaves.runs
  obtain ⟨q, after⟩ := runs.step_respectful respectful others
  have same := RenderCall.number_step listeners (call.setFarm succession.farm) move
  have announces := RenderCall.announces_step listeners (call.setFarm succession.farm)
    behaves.announces move
  cases running : call.stage.isUnderWay with
  | true =>
      have active : succession.farm.active = some call.rendering.number :=
        (orderly.active _).2 ⟨number, call, found, running, rfl⟩
      have taken := RenderCall.step_under_way respectful (call.setFarm succession.farm) running active others
      rw [stepped] at taken after same announces
      cases taken with
      | goesOn still frames =>
          refine ⟨orderly.replace found same ⟨⟨size, q, after⟩, ?_, announces⟩ ?_
            (.inl ⟨still.trans running.symm, frames.active⟩), frames.others⟩
          · intro ended
            rw [still] at ended
            cases ended
          · intro other call' different found' cursor there
            have apart := orderly.inactive_of_ne found found' different active
            exact ⟨cursor, frames.others _ apart cursor there, .inl rfl⟩
      | withdraws ended free inactive cursors =>
          refine ⟨orderly.replace found same ⟨⟨size, q, after⟩, fun _ => free, announces⟩ ?_
            (.inr ⟨running, ended, inactive⟩), ?_⟩
          · intro other call' _ _ cursor there
            exact ⟨cursor, cursors.symm ▸ there, .inl rfl⟩
          · intro render _ cursor there
            exact cursors.symm ▸ there
  | false =>
      have inactive : succession.farm.active ≠ some call.rendering.number :=
        orderly.inactive found running
      obtain ⟨respects, ended, free⟩ := RenderCall.step_over runs respectful others running
        (behaves.free running) inactive
      rw [stepped] at respects ended free after same announces
      refine ⟨orderly.replace found same ⟨⟨size, q, after⟩, fun _ => free, announces⟩ ?_
        (.inl ⟨ended.trans running.symm, respects.active⟩), respects.frames.others⟩
      intro other call' _ _ cursor there
      obtain ⟨later, placed, kept⟩ := respects.cursors _ cursor there
      exact ⟨later, placed, kept.imp_right And.right⟩

theorem Orderly.step {move : Move ε σ Audience} (others : move.Respectful) :
    (succession.step listeners move).Orderly ∧
      ∀ render, succession.farm.active ≠ some render → ∀ cursor ∈ succession.farm.cursors[render]?,
        cursor ∈ (succession.step listeners move).farm.cursors[render]? := by
  cases move with
  | begin size =>
      simp only [Succession.step]
      cases ended : succession.calls.any (·.stage.isUnderWay) with
      | true => exact ⟨orderly, fun _ _ _ there => there⟩
      | false => exact ⟨orderly.begin ended size, fun _ _ _ there => kept_by_start size there⟩
  | call number move =>
      simp only [Succession.step]
      cases found : succession.calls[number]? with
      | none => exact ⟨orderly, fun _ _ _ there => there⟩
      | some call => exact orderly.advance respectful found others rfl

theorem Orderly.play {moves : List (Move ε σ Audience)} (others : ∀ move ∈ moves, move.Respectful) :
    (succession.play listeners moves).Orderly := by
  induction moves generalizing succession with
  | nil => exact orderly
  | cons move rest ih =>
      exact ih (orderly.step respectful (others move (.head _))).1
        fun other member => others other (.tail _ member)

end Steps

section Whole

theorem hasty_respectful : (RenderCall.hasty : Listeners ε σ Audience).Respectful := by
  intro id event farm
  cases event with
  | lineComputed => exact farm.respects_cancel
  | sceneLoaded | sceneRendered | evalError | stdoutWritten => exact .refl farm

variable [Scene σ] [Evaluator ε σ] {listeners : Listeners ε σ Audience}

/-- A call whose threads are the only ones to move is a succession of one. -/
theorem play_alone (listeners : Listeners ε σ Audience) (call : RenderCall ε σ Audience)
    (moves : List (RenderCall.Move ε σ Audience)) :
    (⟨call.farm, [call]⟩ : Succession ε σ Audience).play listeners (moves.map (.call 0)) =
      ⟨(call.play listeners moves).farm, [call.play listeners moves]⟩ := by
  induction moves generalizing call with
  | nil => rfl
  | cons move rest ih => exact ih (call.step listeners move)

/-- A render in one piece leaves no render active. -/
theorem not_rendering_render (respectful : listeners.Respectful) {farm : Farm ε σ Audience}
    (idle : farm.active = none) (size : Dimensions) :
    (farm.render listeners size).2.isRendering = false := by
  obtain ⟨moves, own, returned, same⟩ :=
    RenderCall.render_is_play listeners (respectful.mayCancel farm.cursors.size) size
  have others : ∀ move ∈ (Move.begin size :: moves.map (.call 0) : List (Move ε σ Audience)),
      move.Respectful := by
    intro move member
    rcases List.mem_cons.1 member with rfl | among
    · trivial
    · obtain ⟨inner, inside, rfl⟩ := List.mem_map.1 among
      rcases own inner inside with ⟨id, rfl⟩ | rfl <;> trivial
  have orderly := (start_orderly idle).play respectful others
  have alone : (start farm).play listeners (.begin size :: moves.map (.call 0)) = _ :=
    play_alone listeners (RenderCall.start farm size) moves
  rw [alone] at orderly
  have ended : ((RenderCall.start farm size).play listeners moves).stage.isUnderWay = false := by
    rw [returned]
    rfl
  have first : [(RenderCall.start farm size).play listeners moves][0]? = some _ := rfl
  rw [← same]
  exact orderly.not_rendering first ended (by simp [IsNewest])

/-- In a succession of calls of render a farm is rendering while a call is under way: while it is told that
the scene was loaded and while lines are published; not before the first call, nor while it is told that the
scene was rendered or when the call has returned, unless a newer call is under way. A cancel answers the
same, and cancels the active render only. Whatever move is made, the cursor of the active render is the only
one that may change; and a render begins with a cursor of its own, which is at its top row and not
cancelled. A render in one piece leaves no render active. -/
theorem rendering_iff_under_way (respectful : listeners.Respectful) {farm : Farm ε σ Audience}
    (idle : farm.active = none) :
    (∀ moves : List (Move ε σ Audience), (∀ move ∈ moves, move.Respectful) →
      let after := (start farm).play listeners moves
      (after.farm.isRendering = true ↔ ∃ call ∈ after.calls, call.stage.isUnderWay = true) ∧
      after.farm.cancel.1 = after.farm.isRendering ∧ after.farm.Respects after.farm.cancel.2 ∧
      (∀ (number : Nat) call, after.calls[number]? = some call →
        (∀ event, call.Publishes event → after.Answers number event) ∧
        ∀ summary, call.stage = .returned summary → after.IsNewest number →
          after.farm.isRendering = false) ∧
      (∀ move : Move ε σ Audience, move.Respectful → ∀ render, after.farm.active ≠ some render →
        ∀ cursor ∈ after.farm.cursors[render]?,
          cursor ∈ (after.step listeners move).farm.cursors[render]?) ∧
      ∀ size, after.farm.isRendering = false →
        let next := after.step listeners (.begin size)
        ∃ call, next.calls = after.calls ++ [call] ∧ call.stage.isUnderWay = true ∧
          next.farm.active = some call.rendering.number ∧
          after.farm.cursors[call.rendering.number]? = none ∧
          ∃ cursor ∈ next.farm.cursors[call.rendering.number]?, cursor.size = size ∧
            cursor.cancelled = false ∧ cursor.remaining = size.height.toNat) ∧
    ∀ size, (farm.render listeners size).2.isRendering = false := by
  refine ⟨fun moves others => ?_, not_rendering_render respectful idle⟩
  have orderly := (start_orderly idle).play respectful others
  intro after
  refine ⟨orderly.isRendering_iff, Farm.fst_cancel _, Farm.respects_cancel _, fun number call found =>
    ⟨fun event publishes => orderly.answers found publishes, fun summary returned newest =>
      orderly.not_rendering found (by rw [returned]; rfl) newest⟩,
    fun move other => (orderly.step respectful other).2, fun size idle => ?_⟩
  have ended : after.calls.any (·.stage.isUnderWay) = false := by
    rw [Bool.eq_false_iff]
    intro running
    have rendering := orderly.isRendering_iff.2 (List.any_eq_true.1 running)
    rw [idle] at rendering
    cases rendering
  have begun : after.step listeners (.begin size) = ⟨(RenderCall.start after.farm size).farm,
      after.calls ++ [RenderCall.start after.farm size]⟩ := by
    simp only [Succession.step, ended]
    rfl
  rw [begun]
  refine ⟨_, rfl, rfl, rfl, Array.getElem?_size, .start size, ?_, rfl, rfl, ?_⟩
  · exact Array.getElem?_push_size
  · simp [RowCursor.start, RowCursor.remaining, RowCursor.remainingAfter, RowCursor.unclaimed]

/-- A render that is cancelled at its first line, up to when its listener hears that it is over. -/
def untilRendered : List (Move Bindings Picture Unit) :=
  .begin ⟨1, 3⟩ ::
    (RenderCall.untilFirstLine ++ .drive 0 :: RenderCall.afterFirstLine.take 10).map (.call 0)

/-- While the listener is told of the end of a cancelled render the farm is not rendering and a cancel finds
nothing. The next render may begin at that moment, and is not cancelled. -/
theorem next_render_begins_afresh :
    let told := (start RenderCall.blackTrio).play RenderCall.hasty untilRendered
    let next := told.step RenderCall.hasty (.begin ⟨1, 3⟩)
    (∃ call, told.calls[0]? = some call ∧ call.Publishes (.sceneRendered 0)) ∧
      told.farm.isRendering = false ∧ told.farm.cancel.1 = false ∧
      told.farm.cursors[0]?.map RowCursor.cancelled = some true ∧
      next.farm.isRendering = true ∧
      next.farm.cursors[1]?.map RowCursor.cancelled = some false := by
  intro told next
  have respectful : (RenderCall.hasty : Listeners Bindings Picture Unit).Respectful := hasty_respectful
  have idle : RenderCall.blackTrio.active = none := rfl
  have others : ∀ move ∈ untilRendered, move.Respectful := by
    simp [untilRendered, RenderCall.untilFirstLine, RenderCall.afterFirstLine, Move.Respectful,
      RenderCall.Move.Respectful]
  obtain ⟨-, cancels, -, answers, -, fresh⟩ :=
    (rendering_iff_under_way respectful idle).1 untilRendered others
  have telling : told.calls[0]?.map RenderCall.stage =
      some (.ending ⟨2, true⟩ (.start RenderCall.blackTrio.bus (.sceneRendered 0))) := by
    decide +kernel
  obtain ⟨call, found, stage⟩ := Option.map_eq_some_iff.1 telling
  have publishes : call.Publishes (.sceneRendered 0) := .inr (.inr ⟨_, _, stage, rfl⟩)
  have newest : told.IsNewest 0 := by
    have alone : told.calls.drop 1 = [] := List.drop_eq_nil_of_le (by decide +kernel)
    simp [IsNewest, alone]
  have ended : told.farm.isRendering = false := (answers 0 call found).1 _ publishes newest
  obtain ⟨later, -, -, active, new, cursor, there, -, uncancelled, -⟩ := fresh ⟨1, 3⟩ ended
  have second : later.rendering.number = 1 := by
    have number : next.farm.active = some 1 := by decide +kernel
    exact Option.some.inj (active.symm.trans number)
  rw [second] at there
  refine ⟨⟨call, found, publishes⟩, ended, cancels.trans ended, by decide +kernel, ?_, ?_⟩
  · rw [Farm.isRendering, active]
    rfl
  · rw [Option.mem_def.1 there, Option.map_some, uncancelled]

end Whole

end Succession

end RenderFarm
