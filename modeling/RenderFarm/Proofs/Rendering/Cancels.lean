import RenderFarm.Proofs.Rendering.Claims

/-!
# What cancels record

`Tallied` follows the count of abandoned rows through the three accesses of a cancel. Before a cancel
has begun, the count is zero, and a cursor below zero means that every row was claimed. The first
cancel takes the cursor with the rows that are left; what it holds, or else what it has recorded, is
then the number of rows that are never claimed. Later cancels find the cursor below zero and add
nothing.
-/

namespace RenderFarm.Progress

open Occurrence

structure Tallied (height : Nat) (p : Progress) : Prop where
  untaken : p.cancelling = none → p.cursor.cancelled = false →
    p.cursor.abandoned = 0 ∧ (p.cursor.next < 0 → (claims p.history).length = height)
  taken : ∀ position, p.cancelling = some (.record position) → p.cursor.next < 0 ∧
    max p.cursor.abandoned (RowCursor.unclaimed position) + (claims p.history).length = height
  recorded : p.cancelling = some .raise → p.cursor.next < 0 ∧
    p.cursor.abandoned + (claims p.history).length = height
  raised : p.cursor.cancelled = true → p.cursor.next < 0 ∧
    p.cursor.abandoned + (claims p.history).length = height

theorem Tallied.start (size : Dimensions) (count : Nat) :
    Tallied size.height.toNat (.start size count) where
  untaken := fun _ _ => ⟨rfl, fun below => by
    simp only [Progress.start, RowCursor.start, claims, List.filterMap_nil, List.length_nil] at below ⊢
    omega⟩
  taken := fun _ free => by cases free
  recorded := fun free => by cases free
  raised := fun flag => by cases flag

theorem Tallied.advance {height : Nat} {p q : Progress} (advance : Advance p q)
    (banded : Banded height p) (tallied : Tallied height p) : Tallied height q := by
  cases advance with
  | @claim id driver row found phase got =>
      -- A claim that succeeds finds the cursor at a row, so no cancel has begun.
      have inside := (RowCursor.claim_eq_some_iff.1 got).1
      have next := banded.next inside
      refine ⟨fun free flag => ?_, fun position under => ?_, fun under => ?_, fun flag => ?_⟩
      · have before := tallied.untaken free flag
        refine ⟨before.1, fun below => ?_⟩
        simp only [note, setDriver, RowCursor.claim, claims_append, claims_singleton, claim?,
          Option.toList_some, List.length_append, List.length_singleton] at below ⊢
        omega
      · have := (tallied.taken position under).1
        omega
      · have := (tallied.recorded under).1
        omega
      · have := (tallied.raised flag).1
        omega
  | miss found phase got =>
      have below := RowCursor.claim_eq_none_iff.1 got
      have further : p.cursor.claim.2.next < 0 := by
        simp only [RowCursor.claim]
        omega
      exact ⟨fun free flag => ⟨(tallied.untaken free flag).1,
          fun _ => (tallied.untaken free flag).2 below⟩,
        fun position under => ⟨further, (tallied.taken position under).2⟩,
        fun under => ⟨further, (tallied.recorded under).2⟩,
        fun flag => ⟨further, (tallied.raised flag).2⟩⟩
  | take free =>
      have gone : p.cursor.take.2.next < 0 := by simp [RowCursor.take]
      refine ⟨fun under => by simp at under, fun position under => ⟨gone, ?_⟩,
        fun under => by simp at under, fun flag => ⟨gone, (tallied.raised flag).2⟩⟩
      simp only [Option.some.injEq, Cancelling.record.injEq] at under
      subst under
      simp only [RowCursor.take, RowCursor.unclaimed]
      cases flag : p.cursor.cancelled with
      | true =>
          have := tallied.raised flag
          omega
      | false =>
          have before := tallied.untaken free flag
          by_cases inside : 0 ≤ p.cursor.next
          · have := banded.next inside
            omega
          · have := before.2 (by omega)
            omega
  | @record position under =>
      have before := tallied.taken position under
      refine ⟨fun free => by simp at free, fun position' free => by simp at free,
        fun _ => before, fun flag => before⟩
  | raise under =>
      have before := tallied.recorded under
      exact ⟨fun _ flag => by simp [RowCursor.raise] at flag, fun position free => by simp at free,
        fun free => by simp at free, fun _ => before⟩
  | test | receive | read | reread | count =>
      exact ⟨tallied.untaken, tallied.taken, tallied.recorded, tallied.raised⟩
  | skip | lose | publish =>
      refine ⟨?_, ?_, ?_, ?_⟩ <;>
        simp only [note, setDriver, claims_append, claims_singleton, claim?, Option.toList_none,
          List.append_nil]
      · exact tallied.untaken
      · exact tallied.taken
      · exact tallied.recorded
      · exact tallied.raised

end RenderFarm.Progress
