import Mathlib.Data.List.Basic
import RenderFarm.Language.Evaluation

/-!
# What statements read

A statement that does not fail does one of four things (`Progress.Performs`), and what it does hangs on
the bindings alone that it reads: where more is bound it does the same (`Bindings.Extends`). Bindings in
ascending order are told by what is bound (`Bindings.Ascending.ext`).
-/

namespace RenderFarm

/-- The engine that an evaluation leaves, unless it panicked. -/
def Verdict.engine? {ε σ : Type} : Verdict ε σ → Option ε
  | .success engine _ _ => some engine
  | .failure engine _ => some engine
  | .panic => none

namespace Language

/-- A computation goes well when its first part and the rest of it do. -/
theorem bind_eq_ok {α β : Type} {first : Except Fault α} {rest : α → Except Fault β} {result : β} :
    first >>= rest = .ok result ↔ ∃ value, first = .ok value ∧ rest value = .ok result := by
  cases first with
  | error fault =>
      refine ⟨fun failed => ?_, fun ⟨_, failed, _⟩ => ?_⟩ <;> cases failed
  | ok value =>
      refine ⟨fun rested => ⟨value, rfl, rested⟩, ?_⟩
      rintro ⟨_, ⟨⟩, rested⟩
      exact rested

/-- When only the first part can fail, it is the one that did. -/
theorem bind_pure_eq_error {α β : Type} {first : Except Fault α} {rest : α → β} {fault : Fault} :
    (do return rest (← first)) = .error fault ↔ first = .error fault := by
  cases first with
  | error other =>
      refine ⟨fun failed => ?_, fun failed => ?_⟩ <;> cases failed <;> rfl
  | ok value =>
      refine ⟨fun failed => ?_, fun failed => ?_⟩ <;> cases failed

/-! ## Statements that do not fail -/

namespace Progress

/-- What a statement comes to when it does not fail. -/
inductive Performs (progress : Progress) : Statement → Progress → Prop
  | print (rest : List Char) :
    Performs progress (.print rest)
      { progress with written := "\n" :: shown progress.bindings rest :: progress.written }
  | scene {words : List (List Char)} {built : Picture}
    (read : picture progress.bindings words = .ok built) :
    Performs progress (.scene words)
      { progress with text := sceneText built.size, scene := some built }
  | assign {target source : List Char} {value : Value} (named : isName target = true)
    (read : readValue progress.bindings source = .ok value) :
    Performs progress (.assign target source)
      { progress with
        text := value.render
        bindings := progress.bindings.insert (String.ofList target) value }
  | echo {line : List Char} {value : Value} (named : isName line = true)
    (read : lookupName progress.bindings line = .ok value) :
    Performs progress (.echo line) { progress with text := value.render }

variable {progress next : Progress}

theorem Performs.perform_eq {statement : Statement} (performs : progress.Performs statement next) :
    progress.perform statement = .ok next := by
  cases performs with
  | print rest => rfl
  | scene read => exact bind_eq_ok.2 ⟨_, read, rfl⟩
  | assign named read => exact (if_pos named).trans (bind_eq_ok.2 ⟨_, read, rfl⟩)
  | echo named read => exact (if_pos named).trans (bind_eq_ok.2 ⟨_, read, rfl⟩)

theorem performs_of_perform {statement : Statement}
    (performed : progress.perform statement = .ok next) : progress.Performs statement next := by
  cases statement with
  | print rest =>
      cases performed
      exact .print rest
  | raise rest => cases performed
  | scene words =>
      obtain ⟨built, read, performed⟩ := bind_eq_ok.1 performed
      cases performed
      exact .scene read
  | assign target source =>
      simp only [perform] at performed
      split at performed
      · next named =>
        obtain ⟨value, read, performed⟩ := bind_eq_ok.1 performed
        cases performed
        exact .assign named read
      · cases performed
  | echo line =>
      simp only [perform] at performed
      split at performed
      · next named =>
        obtain ⟨value, read, performed⟩ := bind_eq_ok.1 performed
        cases performed
        exact .echo named read
      · cases performed

/-- A line that does not fail is passed over or makes a statement. -/
theorem performLine_cases {raw : List Char} (performed : progress.performLine raw = .ok next) :
    next = progress ∨ progress.Performs (Statement.ofLine (Text.trim raw)) next := by
  unfold performLine at performed
  split at performed
  · cases performed
    exact .inl rfl
  · cases performed
    exact .inl rfl
  · exact .inr (performs_of_perform performed)

/-- What the statements of some lines keep when they do not fail, the lines do up to the first that
fails. -/
theorem performLines_induction {holds : Progress → Prop} {raws : List (List Char)}
    (kept : ∀ {before after : Progress} {raw : List Char}, raw ∈ raws →
      before.Performs (Statement.ofLine (Text.trim raw)) after → holds before → holds after)
    (line : Nat) (progress : Progress) (first : holds progress) :
    holds (progress.performLines line raws).1 := by
  induction raws generalizing line progress with
  | nil => exact first
  | cons raw rest ih =>
      unfold performLines
      split
      · next next performed =>
        refine ih (fun member => kept (.tail raw member)) (line + 1) next ?_
        rcases performLine_cases performed with rfl | performs
        · exact first
        · exact kept (.head rest) performs first
      · exact first

end Progress

/-! ## Whole texts -/

section Run

variable {bindings : Bindings} {source : String} {progress : Progress}

theorem evaluate_of_run (ran : run bindings source = (progress, none)) :
    evaluate bindings source =
      ⟨progress.writes, .success progress.bindings progress.text progress.scene⟩ := by
  rw [evaluate, ran]

theorem evaluate_of_stopped {fault : LineFault}
    (ran : run bindings source = (progress, some fault)) :
    evaluate bindings source = ⟨progress.writes, .failure progress.bindings fault.message⟩ := by
  rw [evaluate, ran]

theorem engine?_evaluate (bindings : Bindings) (source : String) :
    (evaluate bindings source).verdict.engine? = some (run bindings source).1.bindings := by
  rcases ran : run bindings source with ⟨progress, - | fault⟩
  · rw [evaluate_of_run ran]
    rfl
  · rw [evaluate_of_stopped ran]
    rfl

/-- What the statements of a text keep when they do not fail, the text does as far as it gets. -/
theorem run_lines_induction {P : Progress → Prop}
    (kept : ∀ {before after : Progress} {raw : List Char}, raw ∈ Text.lines source.toList →
      before.Performs (Statement.ofLine (Text.trim raw)) after → P before → P after)
    (first : P (.start bindings)) : P (run bindings source).1 :=
  Progress.performLines_induction kept 1 (.start bindings) first

/-- What every statement keeps that does not fail, a text does as far as it gets. -/
theorem run_induction {holds : Progress → Prop}
    (kept : ∀ {before after : Progress} {statement : Statement},
      before.Performs statement after → holds before → holds after)
    (first : holds (.start bindings)) (source : String) : holds (run bindings source).1 :=
  run_lines_induction (fun _ => kept) first

end Run

/-! ## More that is bound -/

namespace Bindings

/-- What is bound in the second is bound in the first, and to the same. -/
def Extends (more fewer : Bindings) : Prop :=
  ∀ {name value}, fewer.get? name = some value → more.get? name = some value

end Bindings

section Extends

variable {more fewer : Bindings} (bounds : more.Extends fewer)
include bounds

theorem lookupName_mono {name : List Char} {value : Value}
    (read : lookupName fewer name = .ok value) : lookupName more name = .ok value := by
  unfold lookupName at read ⊢
  cases bound : fewer.get? (String.ofList name) with
  | none =>
      rw [bound] at read
      cases read
  | some held =>
      rw [bound] at read
      rw [bounds bound]
      exact read

theorem readValue_mono {source : List Char} {value : Value}
    (read : readValue fewer source = .ok value) : readValue more source = .ok value := by
  unfold readValue at read ⊢
  dsimp only at read ⊢
  split <;> rename_i literal <;> simp only [literal] at read
  · exact read
  · split <;> rename_i quoted <;> simp only [quoted] at read
    · exact read
    · split <;> rename_i named
      · rw [if_pos named] at read
        exact lookupName_mono bounds read
      · rw [if_neg named] at read
        cases read

theorem positive_mono {quantity : Quantity} {token : Option (List Char)} {count : UInt32}
    (read : positive fewer quantity token = .ok count) : positive more quantity token = .ok count := by
  cases token with
  | none => cases read
  | some token =>
      obtain ⟨value, known, read⟩ := bind_eq_ok.1 read
      exact bind_eq_ok.2 ⟨value, readValue_mono bounds known, read⟩

theorem pattern_mono {words : List (List Char)} {found : Pattern × List (List Char)}
    (read : pattern fewer words = .ok found) : pattern more words = .ok found := by
  cases words with
  | nil => exact read
  | cons name words =>
      simp only [pattern] at read ⊢
      split
      · next gradient =>
        rw [if_pos gradient] at read
        exact read
      · next other =>
        rw [if_neg other] at read
        split
        · next checker =>
          rw [if_pos checker] at read
          obtain ⟨cell, sized, read⟩ := bind_eq_ok.1 read
          exact bind_eq_ok.2 ⟨cell, positive_mono bounds sized, read⟩
        · next another =>
          rw [if_neg another] at read
          exact read

theorem picture_mono {words : List (List Char)} {built : Picture}
    (read : picture fewer words = .ok built) : picture more words = .ok built := by
  obtain ⟨width, wide, read⟩ := bind_eq_ok.1 read
  obtain ⟨height, high, read⟩ := bind_eq_ok.1 read
  obtain ⟨found, shape, read⟩ := bind_eq_ok.1 read
  exact bind_eq_ok.2 ⟨width, positive_mono bounds wide, bind_eq_ok.2 ⟨height,
    positive_mono bounds high, bind_eq_ok.2 ⟨found, pattern_mono bounds shape, read⟩⟩⟩

end Extends

/-! ## The order of the names -/

namespace Bindings

/-- Each name stands once, below those behind it. -/
def Ascending (bindings : Bindings) : Prop :=
  bindings.entries.Pairwise fun entry later => entry.1 < later.1

theorem mem_insertEntry {name : String} {value : Value} {entry : String × Value}
    {entries : List (String × Value)} (member : entry ∈ insertEntry name value entries) :
    entry = (name, value) ∨ entry ∈ entries := by
  induction entries with
  | nil => exact .inl (List.mem_singleton.1 member)
  | cons first rest ih =>
      unfold insertEntry at member
      grind

theorem Ascending.insert {bindings : Bindings} (ascending : bindings.Ascending) (name : String)
    (value : Value) : (bindings.insert name value).Ascending := by
  rcases bindings with ⟨entries⟩
  unfold Ascending Bindings.insert at *
  dsimp only at *
  induction entries with
  | nil => exact List.pairwise_singleton _ _
  | cons first rest ih =>
      rcases first with ⟨other, held⟩
      obtain ⟨least, others⟩ := List.pairwise_cons.1 ascending
      unfold insertEntry
      split
      · next below =>
        refine List.pairwise_cons.2 ⟨fun entry member => ?_, ascending⟩
        rcases List.mem_cons.1 member with rfl | later
        · exact below
        · exact String.lt_trans below (least entry later)
      · next above =>
        split
        · next same =>
          subst same
          exact List.pairwise_cons.2 ⟨least, others⟩
        · next apart =>
          refine List.pairwise_cons.2 ⟨fun entry member => ?_, ih others⟩
          rcases mem_insertEntry member with rfl | later
          · exact Decidable.by_contra fun level =>
              apart (String.le_antisymm (String.not_lt.1 level) (String.not_lt.1 above))
          · exact least entry later

theorem Ascending.get?_eq_some {bindings : Bindings} (ascending : bindings.Ascending) {name : String}
    {value : Value} : bindings.get? name = some value ↔ (name, value) ∈ bindings.entries := by
  unfold get?
  constructor
  · intro found
    obtain ⟨before, after, entries, -⟩ := List.lookup_eq_some_iff.1 found
    rw [entries]
    exact List.mem_append_right _ List.mem_cons_self
  · intro member
    obtain ⟨before, after, entries⟩ := List.append_of_mem member
    refine List.lookup_eq_some_iff.2 ⟨before, after, entries, fun entry earlier => ?_⟩
    have below := ascending
    rw [Ascending, entries] at below
    have lower := (List.pairwise_append.1 below).2.2 entry earlier _ List.mem_cons_self
    exact bne_iff_ne.2 (String.ne_of_lt lower).symm

/-- Bindings are told by what is bound. -/
theorem Ascending.ext {first second : Bindings} (ascending : first.Ascending)
    (rising : second.Ascending) (same : ∀ name, first.get? name = second.get? name) :
    first = second := by
  have members : ∀ entry, entry ∈ first.entries ↔ entry ∈ second.entries := by
    rintro ⟨name, value⟩
    rw [← ascending.get?_eq_some, ← rising.get?_eq_some, same]
  have distinct : ∀ {bindings : Bindings}, bindings.Ascending → bindings.entries.Nodup :=
    fun below => below.imp fun lower => ne_of_apply_ne Prod.fst (String.ne_of_lt lower)
  have entries : first.entries = second.entries :=
    ((List.perm_ext_iff_of_nodup (distinct ascending) (distinct rising)).2 members).eq_of_pairwise
      (fun _ _ _ _ below above => absurd above (String.lt_asymm below)) ascending rising
  cases first
  cases second
  exact congrArg Bindings.mk entries

end Bindings

end Language

end RenderFarm
