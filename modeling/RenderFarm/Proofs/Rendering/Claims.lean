import Mathlib.Data.List.Basic
import Mathlib.Data.List.Nodup
import Mathlib.Data.List.Pairwise
import RenderFarm.Proofs.Rendering.Progress

/-!
# The rows that drivers claim

Two invariants of a render under way, kept by every access. `Banded`: the rows claimed so far are the
top rows of the scene, the highest first, and a cursor that is not below zero stands right under
them. `Accounted`: each driver is done with every row that it claimed, in the order of its claims,
except for at most one that it still has in hand. Together they say that no row is claimed, and none
settled, twice.
-/

namespace RenderFarm

/-! ## The cursor -/

namespace RowCursor

theorem claim_eq_some_iff {cursor : RowCursor} {row : UInt32} :
    cursor.claim.1 = some row ↔ 0 ≤ cursor.next ∧ row = .ofNat cursor.next.toNat := by
  unfold claim
  dsimp only
  split
  · next inside => simp [inside, eq_comm]
  · next outside => simp [outside]

theorem claim_eq_none_iff {cursor : RowCursor} :
    cursor.claim.1 = none ↔ cursor.next < 0 := by
  unfold claim
  dsimp only
  split <;> simp_all

end RowCursor

/-! ## Top rows -/

/-- The topmost `count` rows of a picture, from the top down. -/
def topRows (height count : Nat) : List Nat :=
  (List.range count).map fun index => height - 1 - index

theorem topRows_succ (height count : Nat) :
    topRows height (count + 1) = topRows height count ++ [height - 1 - count] := by
  simp [topRows, List.range_succ]

theorem mem_topRows {height count row : Nat} (within : count ≤ height) :
    row ∈ topRows height count ↔ height - count ≤ row ∧ row < height := by
  simp only [topRows, List.mem_map, List.mem_range]
  constructor
  · rintro ⟨index, inside, rfl⟩
    omega
  · rintro ⟨low, high⟩
    exact ⟨height - 1 - row, by omega, by omega⟩

theorem pairwise_topRows {height count : Nat} (within : count ≤ height) :
    (topRows height count).Pairwise (· > ·) := by
  rw [topRows, List.pairwise_map]
  refine List.pairwise_lt_range.imp_of_mem ?_
  intro first second _ inside before
  have := List.mem_range.1 inside
  omega

/-! ## Histories -/

namespace Occurrence

@[simp] theorem claims_append (before after : List Occurrence) :
    claims (before ++ after) = claims before ++ claims after :=
  List.filterMap_append

@[simp] theorem settled_append (before after : List Occurrence) :
    settled (before ++ after) = settled before ++ settled after :=
  List.filterMap_append

@[simp] theorem byDriver_append (id : Nat) (before after : List Occurrence) :
    byDriver id (before ++ after) = byDriver id before ++ byDriver id after :=
  List.filter_append ..

@[simp] theorem claims_singleton (occurrence : Occurrence) :
    claims [occurrence] = occurrence.claim?.toList := by
  cases occurrence <;> rfl

theorem mem_claims {history : List Occurrence} {row : UInt32} :
    row ∈ claims history ↔ ∃ id, claimed id row ∈ history := by
  simp only [claims, List.mem_filterMap]
  constructor
  · rintro ⟨occurrence, member, shown⟩
    cases occurrence <;> cases shown
    exact ⟨_, member⟩
  · rintro ⟨id, member⟩
    exact ⟨_, member, rfl⟩

theorem mem_claims_byDriver {history : List Occurrence} {id : Nat} {row : UInt32} :
    row ∈ claims (byDriver id history) ↔ claimed id row ∈ history := by
  rw [mem_claims]
  simp [byDriver, driver]

theorem mem_settled {history : List Occurrence} {row : UInt32} :
    row ∈ settled history ↔ ∃ occurrence ∈ history, occurrence.settled? = some row :=
  List.mem_filterMap

theorem mem_lines {history : List Occurrence} {row : UInt32} :
    row ∈ lines history ↔ ∃ id colors, published id row colors ∈ history := by
  simp only [lines, List.mem_filterMap]
  constructor
  · rintro ⟨occurrence, member, shown⟩
    cases occurrence <;> cases shown
    exact ⟨_, _, member⟩
  · rintro ⟨id, colors, member⟩
    exact ⟨_, member, rfl⟩

/-- What is published is settled. -/
theorem lines_sublist_settled (history : List Occurrence) :
    (lines history).Sublist (settled history) := by
  induction history with
  | nil => exact .slnil
  | cons occurrence rest ih =>
      cases occurrence with
      | claimed id row => exact ih
      | published id row colors => exact ih.cons_cons row
      | skipped id row => exact ih.cons row
      | lost id row => exact ih.cons row

/-- When no row is told twice, one occurrence at most tells of it. -/
theorem eq_of_nodup_filterMap {history : List Occurrence} {told : Occurrence → Option UInt32}
    (once : (history.filterMap told).Nodup) {first second : Occurrence} (one : first ∈ history)
    (other : second ∈ history) {row : UInt32} (here : told first = some row)
    (there : told second = some row) : first = second := by
  by_contra different
  have apart := List.pairwise_filterMap.1 once
  have : Std.Symm fun a b : Occurrence =>
      ∀ row, told a = some row → ∀ line, told b = some line → row ≠ line :=
    ⟨fun _ _ distinct row shown line told => (distinct line told row shown).symm⟩
  exact apart.forall one other different row here row there rfl

/-- When no row is claimed twice, a row tells who claimed it. -/
theorem claimed_unique {history : List Occurrence} (once : (claims history).Nodup)
    {first second : Nat} {row : UInt32} (one : claimed first row ∈ history)
    (other : claimed second row ∈ history) : first = second :=
  (Occurrence.claimed.inj (eq_of_nodup_filterMap once one other rfl rfl)).1

theorem settled_byDriver_sublist (id : Nat) (occurrence : Occurrence) (rest : List Occurrence) :
    (settled (byDriver id rest)).Sublist (settled (byDriver id (occurrence :: rest))) :=
  ((List.sublist_cons_self occurrence rest).filter _).filterMap _

/-- Rows that each driver settles once, and only one driver settles, are settled once. -/
theorem nodup_settled {history : List Occurrence}
    (each : ∀ id, (settled (byDriver id history)).Nodup)
    (one : ∀ first second row, row ∈ settled (byDriver first history) →
      row ∈ settled (byDriver second history) → first = second) :
    (settled history).Nodup := by
  induction history with
  | nil => exact .nil
  | cons occurrence rest ih =>
      have later := ih (fun id => (each id).sublist (settled_byDriver_sublist id occurrence rest))
        fun first second row inFirst inSecond =>
          one first second row ((settled_byDriver_sublist first occurrence rest).subset inFirst)
            ((settled_byDriver_sublist second occurrence rest).subset inSecond)
      cases shown : occurrence.settled? with
      | none =>
          rwa [settled, List.filterMap_cons_none shown]
      | some row =>
          have own : settled (byDriver occurrence.driver (occurrence :: rest)) =
              row :: settled (byDriver occurrence.driver rest) := by
            simp [settled, byDriver, shown]
          rw [settled, List.filterMap_cons_some shown]
          refine List.nodup_cons.2 ⟨fun again => ?_, later⟩
          obtain ⟨other, member, same⟩ := mem_settled.1 again
          have inOther : row ∈ settled (byDriver other.driver rest) :=
            mem_settled.2 ⟨other, by simpa [byDriver] using member, same⟩
          have driver := one occurrence.driver other.driver row (by rw [own]; exact .head _)
            ((settled_byDriver_sublist _ occurrence rest).subset inOther)
          have fresh := each occurrence.driver
          rw [own] at fresh
          exact (List.nodup_cons.1 fresh).1 (driver ▸ inOther)

end Occurrence

namespace Progress

open Occurrence

/-! ## The band of claimed rows -/

/-- The claimed rows are the top rows of the scene, and a cursor that is not below zero stands right
under them. -/
structure Banded (height : Nat) (p : Progress) : Prop where
  size : p.cursor.size.height.toNat = height
  rows : (claims p.history).map UInt32.toNat = topRows height (claims p.history).length
  within : (claims p.history).length ≤ height
  next : 0 ≤ p.cursor.next → p.cursor.next + 1 + (claims p.history).length = height

theorem Banded.start (size : Dimensions) (count : Nat) :
    Banded size.height.toNat (.start size count) where
  size := rfl
  rows := rfl
  within := Nat.zero_le _
  next := fun _ => by simp [Progress.start, RowCursor.start, claims]

theorem Banded.advance {height : Nat} {p q : Progress} (advance : Advance p q)
    (banded : Banded height p) : Banded height q := by
  cases advance with
  | @claim id driver row found phase got =>
      obtain ⟨inside, rfl⟩ := RowCursor.claim_eq_some_iff.1 got
      have next := banded.next inside
      have bound : height < 2 ^ 32 := banded.size ▸ p.cursor.size.height.toNat_lt
      have position : (UInt32.ofNat p.cursor.next.toNat).toNat =
          height - 1 - (claims p.history).length := by
        rw [UInt32.toNat_ofNat', Nat.mod_eq_of_lt (by omega)]
        omega
      have more : claims (p.history ++ [.claimed id (.ofNat p.cursor.next.toNat)]) =
          claims p.history ++ [.ofNat p.cursor.next.toNat] :=
        claims_append _ _
      refine ⟨banded.size, ?_, ?_, ?_⟩ <;> simp only [note, setDriver, more]
      · rw [List.map_append, banded.rows, List.length_append, List.length_singleton, topRows_succ,
          List.map_singleton, position]
      · rw [List.length_append, List.length_singleton]
        omega
      · intro below
        simp only [RowCursor.claim, List.length_append, List.length_singleton] at below ⊢
        omega
  | miss found phase got =>
      have below := RowCursor.claim_eq_none_iff.1 got
      refine ⟨banded.size, banded.rows, banded.within, fun inside => ?_⟩
      simp only [setDriver, RowCursor.claim] at inside
      omega
  | take free => exact ⟨banded.size, banded.rows, banded.within, fun inside => by cases inside⟩
  | test | receive | record | raise | read | reread | count =>
      exact ⟨banded.size, banded.rows, banded.within, banded.next⟩
  | skip | lose | publish =>
      refine ⟨banded.size, ?_, ?_, ?_⟩ <;>
        simp only [note, setDriver, claims_append, claims_singleton, claim?, Option.toList_none,
          List.append_nil]
      · exact banded.rows
      · exact banded.within
      · exact banded.next

theorem Banded.mem_claims {height : Nat} {p : Progress} (banded : Banded height p) {row : UInt32} :
    row ∈ claims p.history ↔
      height - (claims p.history).length ≤ row.toNat ∧ row.toNat < height := by
  rw [← mem_topRows banded.within, ← banded.rows, List.mem_map]
  constructor
  · exact fun member => ⟨row, member, rfl⟩
  · rintro ⟨other, member, same⟩
    rwa [← UInt32.toNat_inj.1 same]

theorem Banded.descending {height : Nat} {p : Progress} (banded : Banded height p) :
    (claims p.history).Pairwise (· > ·) := by
  have ordered := pairwise_topRows banded.within
  rw [← banded.rows, List.pairwise_map] at ordered
  exact ordered.imp fun after => UInt32.lt_iff_toNat_lt.2 after

/-- No row is claimed twice. -/
theorem Banded.nodup_claims {height : Nat} {p : Progress} (banded : Banded height p) :
    (claims p.history).Nodup :=
  banded.descending.imp fun after => (UInt32.ne_of_lt after).symm

/-! ## What a driver has in hand -/

/-- The row that a driver has claimed and is not done with. -/
def inHand : RowDriver.Phase → List UInt32
  | .await row => [row]
  | .publish row _ => [row]
  | _ => []

/-- The row in the hand of the driver of worker `id`. -/
def held (p : Progress) (id : Nat) : List UInt32 :=
  (p.drivers[id]?.map fun driver => inHand driver.phase).getD []

/-- Every driver is done with its claims, in their order, up to what it has in hand. -/
def Accounted (p : Progress) : Prop :=
  ∀ id, claims (byDriver id p.history) = settled (byDriver id p.history) ++ p.held id

theorem Accounted.start (size : Dimensions) (count : Nat) : Accounted (.start size count) := by
  intro id
  simp only [held, Progress.start, List.getElem?_replicate]
  split <;> rfl

/-- A step of a driver keeps the accounts if the rows it takes are those it is done with and those
it has in hand afterwards. -/
theorem Accounted.drive {p : Progress} (accounted : p.Accounted) {id : Nat} {driver : RowDriver}
    (found : p.drivers[id]? = some driver) (cursor : RowCursor) (next : RowDriver)
    (occurrences : List Occurrence) (own : ∀ occurrence ∈ occurrences, occurrence.driver = id)
    (balance : inHand driver.phase ++ claims occurrences =
      settled occurrences ++ inHand next.phase) :
    Accounted { p with
      cursor := cursor
      drivers := p.drivers.set id next
      history := p.history ++ occurrences } := by
  obtain ⟨inside, -⟩ := List.getElem?_eq_some_iff.1 found
  intro other
  have before := accounted other
  simp only [held] at before ⊢
  rw [byDriver_append, claims_append, settled_append, before]
  by_cases same : id = other
  · subst same
    have all : byDriver id occurrences = occurrences := by
      simpa [byDriver, List.filter_eq_self] using own
    rw [all, found, List.getElem?_set_self inside]
    simp only [Option.map_some, Option.getD_some]
    rw [List.append_assoc, balance, List.append_assoc]
  · have none : byDriver other occurrences = [] := by
      simp only [byDriver, List.filter_eq_nil_iff, beq_iff_eq]
      intro occurrence member
      rwa [own occurrence member]
    rw [none, List.getElem?_set_ne same]
    simp [claims, settled]

theorem Accounted.advance {p q : Progress} (advance : Advance p q) (accounted : Accounted p) :
    Accounted q := by
  cases advance with
  | @test id driver found phase =>
      have balance : inHand driver.phase ++ claims [] =
          settled [] ++ inHand (driver.tested p.cursor.cancelled).phase := by
        rw [phase]
        simp only [RowDriver.tested]
        split <;> rfl
      have kept := accounted.drive found p.cursor _ [] (by simp) balance
      rwa [List.append_nil] at kept
  | claim found phase got =>
      exact accounted.drive found _ _ [_] (by simp [driver]) (by rw [phase]; rfl)
  | @miss id driver found phase got =>
      have balance : inHand driver.phase ++ claims [] =
          settled [] ++ inHand (driver.claimed none).phase := by rw [phase]; rfl
      have kept := accounted.drive found p.cursor.claim.2 _ [] (by simp) balance
      rwa [List.append_nil] at kept
  | @receive id driver row colors found phase =>
      have balance : inHand driver.phase ++ claims [] =
          settled [] ++ inHand (driver.answered row (.colors colors)).phase := by rw [phase]; rfl
      have kept := accounted.drive found p.cursor _ [] (by simp) balance
      rwa [List.append_nil] at kept
  | skip found phase =>
      exact accounted.drive found _ _ [_] (by simp [driver]) (by rw [phase]; rfl)
  | lose found phase =>
      exact accounted.drive found _ _ [_] (by simp [driver]) (by rw [phase]; rfl)
  | publish found phase =>
      exact accounted.drive found _ _ [_] (by simp [driver]) (by rw [phase]; rfl)
  | take | record | raise | read | reread | count => exact accounted

/-- What a driver is done with, it has claimed. -/
theorem Accounted.claimed_of_settled {p : Progress} (accounted : p.Accounted) {id : Nat}
    {row : UInt32} (member : row ∈ settled (byDriver id p.history)) :
    .claimed id row ∈ p.history := by
  rw [← mem_claims_byDriver, accounted id]
  exact List.mem_append_left _ member

/-- No row is settled twice. -/
theorem Accounted.nodup_settled {p : Progress} (accounted : p.Accounted)
    (once : (claims p.history).Nodup) : (settled p.history).Nodup := by
  refine Occurrence.nodup_settled (fun id => ?_) fun first second row inFirst inSecond =>
    claimed_unique once (accounted.claimed_of_settled inFirst)
      (accounted.claimed_of_settled inSecond)
  have own : (claims (byDriver id p.history)).Nodup :=
    once.sublist (List.filter_sublist.filterMap _)
  rw [accounted id] at own
  exact (List.nodup_append.1 own).1

/-- The rows of a driver with nothing in hand are all settled. -/
theorem Accounted.settled_of_claimed {p : Progress} (accounted : p.Accounted) {id : Nat}
    (free : p.held id = []) {row : UInt32} (member : .claimed id row ∈ p.history) :
    ∃ occurrence ∈ p.history, occurrence.driver = id ∧ occurrence.settled? = some row := by
  rw [← mem_claims_byDriver, accounted id, free, List.append_nil] at member
  obtain ⟨occurrence, inside, shown⟩ := mem_settled.1 member
  simp only [byDriver, List.mem_filter, beq_iff_eq] at inside
  exact ⟨occurrence, inside.1, inside.2, shown⟩

/-! ## Why drivers stop -/

/-- A stopped driver found the flag raised or no row left, or has lost a row with its worker. -/
def Grounded (p : Progress) : Prop :=
  ∀ id driver, p.drivers[id]? = some driver → driver.phase = .stopped →
    p.cursor.cancelled = true ∨ p.cursor.next < 0 ∨ ∃ row, .lost id row ∈ p.history

theorem Grounded.start (size : Dimensions) (count : Nat) : Grounded (.start size count) := by
  intro id driver found phase
  simp only [Progress.start, List.getElem?_replicate] at found
  split at found
  · cases found
    cases phase
  · cases found

/-- The flag is not lowered, a cursor below zero stays there, and what is lost stays lost. -/
theorem Grounded.drive {p : Progress} (grounded : p.Grounded) {id : Nat} {driver : RowDriver}
    (found : p.drivers[id]? = some driver) (cursor : RowCursor) (next : RowDriver)
    (occurrences : List Occurrence)
    (raised : p.cursor.cancelled = true → cursor.cancelled = true)
    (below : p.cursor.next < 0 → cursor.next < 0)
    (own : next.phase = .stopped →
      cursor.cancelled = true ∨ cursor.next < 0 ∨ ∃ row, .lost id row ∈ p.history ++ occurrences) :
    Grounded { p with
      cursor := cursor
      drivers := p.drivers.set id next
      history := p.history ++ occurrences } := by
  obtain ⟨inside, -⟩ := List.getElem?_eq_some_iff.1 found
  intro other driver' found' phase
  by_cases same : id = other
  · subst same
    rw [List.getElem?_set_self inside] at found'
    cases found'
    exact own phase
  · rw [List.getElem?_set_ne same] at found'
    rcases grounded other driver' found' phase with flag | gone | ⟨row, lost⟩
    · exact .inl (raised flag)
    · exact .inr (.inl (below gone))
    · exact .inr (.inr ⟨row, List.mem_append_left _ lost⟩)

theorem Grounded.advance {p q : Progress} (advance : Advance p q) (grounded : Grounded p) :
    Grounded q := by
  cases advance with
  | @test id driver found phase =>
      have flagged : (driver.tested p.cursor.cancelled).phase = .stopped →
          p.cursor.cancelled = true := by
        intro stopped
        cases flag : p.cursor.cancelled with
        | true => rfl
        | false =>
            rw [flag] at stopped
            cases stopped
      have kept := grounded.drive found p.cursor _ [] (fun flag => flag) (fun below => below)
        fun stopped => .inl (flagged stopped)
      rwa [List.append_nil] at kept
  | claim found phase got =>
      have inside := (RowCursor.claim_eq_some_iff.1 got).1
      exact grounded.drive found _ _ [_] (fun flag => flag) (fun below => by omega)
        (by simp [RowDriver.claimed])
  | @miss id driver found phase got =>
      have below := RowCursor.claim_eq_none_iff.1 got
      have further : p.cursor.claim.2.next < 0 := by
        simp only [RowCursor.claim]
        omega
      have kept := grounded.drive found p.cursor.claim.2 (driver.claimed none) []
        (fun flag => flag) (fun _ => further) fun _ => .inr (.inl further)
      rwa [List.append_nil] at kept
  | @receive id driver row colors found phase =>
      have kept := grounded.drive found p.cursor (driver.answered row (.colors colors)) []
        (fun flag => flag) (fun below => below) (by simp [RowDriver.answered])
      rwa [List.append_nil] at kept
  | skip found phase =>
      exact grounded.drive found _ _ [_] (fun flag => flag) (fun below => below)
        (by simp [RowDriver.answered])
  | lose found phase =>
      exact grounded.drive found _ _ [_] (fun flag => flag) (fun below => below)
        fun _ => .inr (.inr ⟨_, List.mem_append_right _ (.head _)⟩)
  | publish found phase =>
      exact grounded.drive found _ _ [_] (fun flag => flag) (fun below => below) (by simp [RowDriver.sent])
  | take free => exact fun id driver found phase => .inr (.inl (by simp [RowCursor.take]))
  | raise under => exact fun id driver found phase => .inl rfl
  | record | read | reread | count => exact grounded

end Progress

end RenderFarm
