import RenderFarm.Text.Integer

/-!
# Values and bindings

A value of the scene language is an integer or a text. Bindings are kept in ascending order of
their names, one value to a name; `get?_insert` says what an insertion changes.
-/

namespace RenderFarm.Language

inductive Value where
  | int (value : Int)
  | text (inner : String)
  deriving DecidableEq, Inhabited

/-- How a value is written: a literal, or the text between single quotes as it is. -/
def Value.render : Value → String
  | .int value => String.ofList (Text.intDigits value)
  | .text inner => "'" ++ inner ++ "'"

/-- Names are ASCII letters, digits and underscores and do not begin with a digit. -/
def isNameStart (c : Char) : Bool :=
  c.isAlpha || c == '_'

def isNameChar (c : Char) : Bool :=
  c.isAlphanum || c == '_'

def isName : List Char → Bool
  | [] => false
  | c :: rest => isNameStart c && rest.all isNameChar

/-- Values by name, in ascending order of the names. -/
structure Bindings where
  entries : List (String × Value)
  deriving DecidableEq, Inhabited

namespace Bindings

def empty : Bindings := ⟨[]⟩

def get? (bindings : Bindings) (name : String) : Option Value :=
  bindings.entries.lookup name

/-- Puts an entry in its place, over an entry of the same name. -/
def insertEntry (name : String) (value : Value) : List (String × Value) → List (String × Value)
  | [] => [(name, value)]
  | (other, held) :: rest =>
    if name < other then (name, value) :: (other, held) :: rest
    else if name = other then (name, value) :: rest
    else (other, held) :: insertEntry name value rest

def insert (bindings : Bindings) (name : String) (value : Value) : Bindings :=
  ⟨insertEntry name value bindings.entries⟩

/-- The bound names, ascending. -/
def names (bindings : Bindings) : List String :=
  bindings.entries.map Prod.fst

theorem lookup_cons_eq_ite (key other : String) (held : Value) (entries : List (String × Value)) :
    List.lookup other ((key, held) :: entries) =
      if other = key then some held else entries.lookup other := by
  by_cases same : other = key
  · subst same; simp
  · have different : (other == key) = false := by simp [same]
    simp [List.lookup_cons, different, same]

theorem lookup_insertEntry (name other : String) (value : Value) (entries : List (String × Value)) :
    (insertEntry name value entries).lookup other =
      if other = name then some value else entries.lookup other := by
  induction entries with
  | nil => simp [insertEntry, lookup_cons_eq_ite]
  | cons entry rest ih =>
    rcases entry with ⟨key, held⟩
    unfold insertEntry
    split
    · rw [lookup_cons_eq_ite]
    · split
      · next equal =>
        subst equal
        simp only [lookup_cons_eq_ite]
        split <;> rfl
      · next unequal =>
        simp only [lookup_cons_eq_ite, ih]
        by_cases same : other = key
        · subst same
          simp [Ne.symm unequal]
        · simp [same]

theorem get?_insert (bindings : Bindings) (name other : String) (value : Value) :
    (bindings.insert name value).get? other =
      if other = name then some value else bindings.get? other :=
  lookup_insertEntry name other value bindings.entries

end Bindings

end RenderFarm.Language
