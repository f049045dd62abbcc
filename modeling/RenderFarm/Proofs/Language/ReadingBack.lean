import RenderFarm.Proofs.Language.Reading
import RenderFarm.Proofs.Language.Values

/-!
# Values that are read back

Whatever evaluations leave bound, the bound names are names and the values are such as a line can give
(`Reached.tidy`). So the text that a bound name shows can be assigned to another name, which is then
bound to the same value (`shown_value_read_back`).
-/

namespace RenderFarm.Language

/-! ## What can be bound -/

/-- What evaluations leave bound, one after the other, when nothing was bound before the first. -/
inductive Reached : Bindings → Prop
  | fresh : Reached .empty
  | evaluated {bindings next : Bindings} (reached : Reached bindings) (source : String)
    (left : (evaluate bindings source).verdict.engine? = some next) : Reached next

/-- Names are bound, to values that a line can give. -/
def Bindings.Tidy (bindings : Bindings) : Prop :=
  ∀ name value, bindings.get? name = some value → isName name.toList = true ∧ value.Given

/-- A bound name has a value. -/
theorem Bindings.exists_get?_of_mem {bindings : Bindings} {name : String}
    (member : name ∈ bindings.names) : ∃ value, bindings.get? name = some value := by
  obtain ⟨⟨other, held⟩, entry, rfl⟩ := List.mem_map.1 member
  refine Option.isSome_iff_exists.1 (Option.isSome_iff_ne_none.2 fun unbound => ?_)
  have absent := List.lookup_eq_none_iff.1 unbound (other, held) entry
  simp at absent

theorem mem_of_unquote? {quote : Char} {token inner : List Char}
    (quoted : unquote? quote token = some inner) : ∀ c ∈ inner, c ∈ token := by
  cases token with
  | nil => cases quoted
  | cons first rest =>
      unfold unquote? at quoted
      dsimp only at quoted
      split at quoted
      · cases quoted
      · next last middle reversed =>
        split at quoted
        · cases quoted
          intro c inside
          have there : c ∈ rest.reverse := reversed ▸ List.mem_cons_of_mem last (List.mem_reverse.1 inside)
          exact List.mem_cons_of_mem first (List.mem_reverse.1 there)
        · cases quoted

/-- A line that assigns is parted by its first equals sign. -/
theorem splitFirst_of_ofLine_assign {line target source : List Char}
    (assigns : Statement.ofLine line = .assign target source) :
    ∃ before, Text.splitFirst (· == '=') line = some (before, source) := by
  have plain : ∀ (keyword rest : List Char) (last : Statement),
      (if keyword = "print".toList then .print rest
        else if keyword = "raise".toList then .raise rest
        else if keyword = "scene".toList then .scene (Text.words rest)
        else last) = .assign target source → last = .assign target source := by
    intro keyword rest last assigns
    split at assigns
    · cases assigns
    split at assigns
    · cases assigns
    split at assigns
    · cases assigns
    exact assigns
  have parted := plain _ _ _ assigns
  split at parted
  · next before value found =>
    cases parted
    exact ⟨before, found⟩
  · cases parted

/-- What is assigned stands on the line. -/
theorem mem_of_ofLine_assign {line target source : List Char}
    (assigns : Statement.ofLine line = .assign target source) : ∀ c ∈ source, c ∈ line := by
  obtain ⟨before, parted⟩ := splitFirst_of_ofLine_assign assigns
  rcases Text.uncut_or_exists_cut (· == '=') line with uncut | ⟨left, c, right, uncut, cut, rfl⟩
  · rw [Text.splitFirst_eq_none uncut] at parted
    cases parted
  · rw [Text.splitFirst_append_cons uncut cut] at parted
    cases parted
    exact fun d inside => List.mem_append_right _ (List.mem_cons_of_mem c inside)

/-- A value that is read from a text without a line feed can be given. -/
theorem given_of_readValue {bindings : Bindings} (tidy : bindings.Tidy) {source : List Char}
    (single : '\n' ∉ source) {value : Value} (read : readValue bindings source = .ok value) :
    value.Given := by
  unfold readValue at read
  dsimp only at read
  split at read
  · next literal =>
    cases read
    exact (Text.int64?_eq_some_iff.1 literal).2
  · split at read
    · next inner quoted =>
      cases read
      have within : ∀ c ∈ inner, c ∈ Text.trim source := by
        rcases Option.or_eq_some_iff.1 quoted with quoted | ⟨-, quoted⟩
        · exact mem_of_unquote? quoted
        · exact mem_of_unquote? quoted
      intro feed
      rw [String.toList_ofList] at feed
      exact single (Text.mem_of_mem_trim (within _ feed))
    · split at read
      · exact (tidy _ _ (lookupName_eq_ok_iff.1 read)).2
      · cases read

theorem Bindings.Tidy.run {bindings : Bindings} (tidy : bindings.Tidy) (source : String) :
    (run bindings source).1.bindings.Tidy := by
  refine run_lines_induction (P := fun progress => progress.bindings.Tidy) ?_ tidy
  intro before after raw member performs tidy
  generalize shape : Statement.ofLine (Text.trim raw) = statement at performs
  cases performs with
  | print rest => exact tidy
  | scene read => exact tidy
  | echo named read => exact tidy
  | @assign target source value named read =>
      have single : '\n' ∉ source := fun feed => Text.notMem_of_mem_lines member
        (Text.mem_of_mem_trim (mem_of_ofLine_assign shape _ feed))
      intro name held bound
      rw [Bindings.get?_insert] at bound
      split at bound
      · next same =>
        subst same
        cases bound
        exact ⟨by rwa [String.toList_ofList], given_of_readValue tidy single read⟩
      · exact tidy _ _ bound

theorem Reached.tidy {bindings : Bindings} (reached : Reached bindings) : bindings.Tidy := by
  induction reached with
  | fresh => exact fun _ _ bound => by cases bound
  | evaluated reached source left ih =>
      rw [engine?_evaluate] at left
      cases left
      exact ih.run source

/-! ## Lines that show and assign -/

/-- The words that begin statements of their own. -/
def keywords : List String :=
  ["print", "raise", "scene"]

/-- No keyword is spelt by another text. -/
theorem ne_of_notMem_keywords {name : String} (plain : name ∉ keywords) :
    name.toList ≠ "print".toList ∧ name.toList ≠ "raise".toList ∧ name.toList ≠ "scene".toList := by
  simp only [keywords, List.mem_cons, List.not_mem_nil, or_false, not_or] at plain
  exact plain.imp (mt String.toList_inj.1) (And.imp (mt String.toList_inj.1) (mt String.toList_inj.1))

/-- A name alone on a line shows its value. -/
theorem ofLine_name {name : String} (named : isName name.toList = true) (plain : name ∉ keywords) :
    Statement.ofLine name.toList = .echo name.toList := by
  obtain ⟨-, -, -, -, all⟩ := exists_of_isName named
  obtain ⟨print, raise, scene⟩ := ne_of_notMem_keywords plain
  unfold Statement.ofLine
  rw [Text.splitFirst_eq_none (isWord_of_isName named).whole,
    Text.splitFirst_eq_none fun c inside => (isBlank_of_isNameChar (all c inside)).2]
  simp only [print, raise, scene, if_false]

/-- The line that assigns what a text stands for. -/
def assignment (target text : String) : String :=
  target ++ " = " ++ text

theorem toList_assignment (target text : String) :
    (assignment target text).toList = target.toList ++ ' ' :: '=' :: ' ' :: text.toList := by
  simp [assignment]

theorem ofLine_assignment {target : String} (named : isName target.toList = true)
    (plain : target ∉ keywords) (text : String) :
    Statement.ofLine (assignment target text).toList =
      .assign target.toList (' ' :: text.toList) := by
  obtain ⟨-, -, -, -, all⟩ := exists_of_isName named
  obtain ⟨print, raise, scene⟩ := ne_of_notMem_keywords plain
  have word := isWord_of_isName named
  have parted : Text.splitFirst (· == '=') (assignment target text).toList =
      some (target.toList ++ [' '], ' ' :: text.toList) := by
    have uncut : ∀ c ∈ target.toList ++ [' '], (c == '=') = false := by
      intro c inside
      rcases List.mem_append.1 inside with inside | blank
      · exact (isBlank_of_isNameChar (all c inside)).2
      · rw [List.mem_singleton.1 blank]
        rfl
    rw [toList_assignment, ← Text.splitFirst_append_cons uncut (c := '=') rfl, List.append_assoc]
    rfl
  have trimmed : Text.trim (target.toList ++ [' ']) = target.toList := word.trim_concat rfl
  unfold Statement.ofLine
  rw [parted, toList_assignment, Text.splitFirst_append_cons word.whole rfl]
  simp only [print, raise, scene, if_false, trimmed]

/-! ## Texts of one line -/

theorem run_of_line {bindings : Bindings} {source : String} {next : Progress}
    (single : '\n' ∉ source.toList)
    (performed : (Progress.start bindings).performLine source.toList = .ok next) :
    run bindings source = (next, none) := by
  unfold run
  rw [Text.lines_eq_singleton single]
  simp only [Progress.performLines, performed]

/-- A line that begins with a name and has no blank at its ends makes a statement. -/
theorem performLine_of_named {raw : List Char} (progress : Progress) (trimmed : Text.trim raw = raw)
    (start : ∃ first rest, raw = first :: rest ∧ isNameStart first = true) :
    progress.performLine raw = progress.perform (Statement.ofLine raw) := by
  obtain ⟨first, rest, rfl, start⟩ := start
  obtain ⟨-, -, -, -, -, comment⟩ := isNameStart_ne start
  unfold Progress.performLine
  rw [trimmed]
  split
  · next empty => cases empty
  · next others same => exact absurd (List.cons.inj same).1 comment
  · rfl

theorem Value.Given.notMem_render {value : Value} (given : value.Given) :
    '\n' ∉ value.render.toList := by
  cases value with
  | int number =>
      intro feed
      rw [Value.render, String.toList_ofList] at feed
      have blank := (isWord_intDigits number).whole _ feed
      cases blank
  | text inner =>
      rw [Value.toList_render_text]
      intro feed
      rcases List.mem_cons.1 feed with quote | feed
      · cases quote
      · rcases List.mem_append.1 feed with inside | quote
        · exact given inside
        · cases List.mem_singleton.1 quote

/-- A line that shows a name shows its value. -/
theorem evaluate_name {bindings : Bindings} {name : String} {value : Value}
    (named : isName name.toList = true) (plain : name ∉ keywords)
    (bound : bindings.get? name = some value) :
    evaluate bindings name = ⟨[], .success bindings value.render none⟩ := by
  obtain ⟨first, rest, line, start, -⟩ := exists_of_isName named
  have word := isWord_of_isName named
  have single : '\n' ∉ name.toList := fun feed => by cases word.whole _ feed
  have shown : (Progress.start bindings).perform (.echo name.toList) =
      .ok { Progress.start bindings with text := value.render } := by
    have read : lookupName bindings name.toList = .ok value :=
      lookupName_eq_ok_iff.2 (by rwa [String.ofList_toList])
    have performs : (Progress.start bindings).Performs (.echo name.toList) _ := .echo named read
    exact performs.perform_eq
  have performed := performLine_of_named (.start bindings) word.trim_eq
    ⟨first, rest, line, start⟩
  rw [ofLine_name named plain, shown] at performed
  exact evaluate_of_run (run_of_line single performed)

/-- A line that assigns the text of a value binds the value. -/
theorem evaluate_assignment (bindings : Bindings) {target : String} {value : Value}
    (named : isName target.toList = true) (plain : target ∉ keywords) (given : value.Given) :
    evaluate bindings (assignment target value.render) =
      ⟨[], .success (bindings.insert target value) value.render none⟩ := by
  obtain ⟨first, rest, line, start, -⟩ := exists_of_isName named
  have word := isWord_of_isName named
  have filled : value.render.toList ≠ [] := mt String.toList_eq_nil_iff.1 value.render_ne_empty
  have shape := toList_assignment target value.render
  have single : '\n' ∉ (assignment target value.render).toList := by
    rw [shape]
    intro feed
    rcases List.mem_append.1 feed with inside | feed
    · cases word.whole _ inside
    · simp only [List.mem_cons, given.notMem_render, or_false] at feed
      revert feed
      decide
  have trimmed : Text.trim (assignment target value.render).toList =
      (assignment target value.render).toList := by
    obtain ⟨-, last⟩ := value.isBlank_ends_render
    have ends : (assignment target value.render).toList.getLast? = value.render.toList.getLast? := by
      rw [shape, show target.toList ++ ' ' :: '=' :: ' ' :: value.render.toList =
        (target.toList ++ [' ', '=', ' ']) ++ value.render.toList by simp]
      exact List.getLast?_append_of_ne_nil _ filled
    refine Text.trim_eq_self (fun c head => ?_) (by rwa [ends])
    rw [shape, line] at head
    cases head
    exact word.whole first (line ▸ List.mem_cons_self)
  have bound : (Progress.start bindings).perform
      (.assign target.toList (' ' :: value.render.toList)) =
      .ok { Progress.start bindings with
        text := value.render
        bindings := bindings.insert target value } := by
    have read : readValue bindings (' ' :: value.render.toList) = .ok value :=
      readValue_render given bindings ((Text.trim_cons rfl _).trans value.trim_render)
    have performs : (Progress.start bindings).Performs
        (.assign target.toList (' ' :: value.render.toList)) _ := .assign named read
    have bound := performs.perform_eq
    rwa [String.ofList_toList] at bound
  have performed := performLine_of_named (.start bindings) trimmed
    ⟨first, rest ++ ' ' :: '=' :: ' ' :: value.render.toList, by rw [shape, line]; rfl, start⟩
  rw [ofLine_assignment named plain, bound] at performed
  exact evaluate_of_run (run_of_line single performed)

/-- Whatever evaluations have left bound, in whatever order and whether they failed or not, the bound
names are names. The text of a line that shows one of them is the text of its value. It can be assigned
to any name but a keyword, which is then bound to the same value, and every other name as before. -/
theorem shown_value_read_back {bindings : Bindings} (reached : Reached bindings) :
    (∀ name ∈ bindings.names, isName name.toList = true) ∧
    ∀ name ∈ bindings.names, ∀ target : String, isName target.toList = true →
      name ∉ keywords → target ∉ keywords →
      ∃ text next, evaluate bindings name = ⟨[], .success bindings text none⟩ ∧
        evaluate bindings (assignment target text) = ⟨[], .success next text none⟩ ∧
        (∃ value, bindings.get? name = some value ∧ next.get? target = some value) ∧
        ∀ other, other ≠ target → next.get? other = bindings.get? other := by
  have tidy := reached.tidy
  refine ⟨fun name member => ?_, fun name member target targeted plain other => ?_⟩
  · obtain ⟨value, bound⟩ := Bindings.exists_get?_of_mem member
    exact (tidy _ _ bound).1
  · obtain ⟨value, bound⟩ := Bindings.exists_get?_of_mem member
    obtain ⟨named, given⟩ := tidy _ _ bound
    refine ⟨value.render, bindings.insert target value, evaluate_name named plain bound,
      evaluate_assignment bindings targeted other given, ⟨value, bound, ?_⟩, fun another apart => ?_⟩
    · rw [Bindings.get?_insert, if_pos rfl]
    · rw [Bindings.get?_insert, if_neg apart]

/-- A text that holds both quotes, an equals sign and a hash is read back, also when the evaluation
that bound it failed in the end. -/
theorem quotes_read_back :
    let bindings : Bindings := ⟨[("s", .text "it's = \"#1\"")]⟩
    (evaluate .empty "s = 'it's = \"#1\"'\nraise no").verdict =
        .failure bindings (LineFault.message ⟨2, .raised "no"⟩) ∧
      Reached bindings ∧ "s" ∈ bindings.names ∧ isName "t".toList = true ∧ "s" ∉ keywords ∧
      "t" ∉ keywords ∧
      ∃ text next, evaluate bindings "s" = ⟨[], .success bindings text none⟩ ∧
        evaluate bindings (assignment "t" text) = ⟨[], .success next text none⟩ ∧
        next.get? "t" = some (.text "it's = \"#1\"") := by
  intro bindings
  have stopped : run .empty "s = 'it's = \"#1\"'\nraise no" =
      (⟨bindings, "'it's = \"#1\"'", none, []⟩, some ⟨2, .raised "no"⟩) := by
    decide +kernel
  have reached : Reached bindings :=
    .evaluated .fresh "s = 'it's = \"#1\"'\nraise no" (by rw [engine?_evaluate, stopped])
  have member : "s" ∈ bindings.names := by decide
  have named : isName "t".toList = true := by decide
  have shown : "s" ∉ keywords := by decide
  have assigned : "t" ∉ keywords := by decide
  refine ⟨by rw [evaluate_of_stopped stopped], reached, member, named, shown, assigned, ?_⟩
  obtain ⟨text, next, first, second, ⟨value, bound, same⟩, -⟩ :=
    (shown_value_read_back reached).2 "s" member "t" named shown assigned
  exact ⟨text, next, first, second, same.trans (bound.symm.trans (by decide))⟩

end RenderFarm.Language
