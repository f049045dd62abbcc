import RenderFarm.Language.Fault
import RenderFarm.Language.Picture
import RenderFarm.Text.Blank

/-!
# Statements

A line of the scene language is one statement. `Statement.ofLine` tells which by its first word;
reading it any further needs the bindings, since a name may stand wherever a value may.
-/

namespace RenderFarm.Language

inductive Statement where
  /-- Write the rest of the line, or the value that it names, and a line feed. -/
  | print (rest : List Char)
  /-- Fail with the rest of the line. -/
  | raise (rest : List Char)
  /-- Declare a scene by the words of the rest of the line. -/
  | scene (arguments : List (List Char))
  /-- Bind a name to a value. -/
  | assign (target value : List Char)
  /-- Show the value of a name. -/
  | echo (line : List Char)
  deriving DecidableEq

/-- The statement that a trimmed line makes. A keyword stands before the first blank; in any other
line the first equals sign parts target and value. -/
def Statement.ofLine (line : List Char) : Statement :=
  let (keyword, rest) :=
    match Text.splitFirst Text.isBlank line with
    | some (keyword, rest) => (keyword, Text.trim rest)
    | none => (line, [])
  if keyword = "print".toList then .print rest
  else if keyword = "raise".toList then .raise rest
  else if keyword = "scene".toList then .scene (Text.words rest)
  else
    match Text.splitFirst (· == '=') line with
    | some (target, value) => .assign (Text.trim target) value
    | none => .echo line

/-! ## Values -/

/-- The text between two equal quotes, the first and the last character of a token. -/
def unquote? (quote : Char) : List Char → Option (List Char)
  | [] => none
  | first :: rest =>
    match rest.reverse with
    | [] => none
    | last :: inner => if first = quote ∧ last = quote then some inner.reverse else none

def lookupName (bindings : Bindings) (name : List Char) : Except Fault Value :=
  match bindings.get? (String.ofList name) with
  | some value => .ok value
  | none => .error (.undefinedName (String.ofList name))

/-- The value of an integer literal, a text in single or double quotes, or a bound name. -/
def readValue (bindings : Bindings) (source : List Char) : Except Fault Value :=
  let token := Text.trim source
  match Text.int64? token with
  | some value => .ok (.int value)
  | none =>
    match (unquote? '\'' token).or (unquote? '"' token) with
    | some inner => .ok (.text (String.ofList inner))
    | none =>
      if isName token then lookupName bindings token
      else .error (.invalidValue (String.ofList token))

/-! ## Scenes -/

/-- A value between 1 and `2 ^ 32 - 1`. -/
def positive (bindings : Bindings) (quantity : Quantity) :
    Option (List Char) → Except Fault UInt32
  | none => .error (.missing quantity)
  | some token => do
    let value ← readValue bindings token
    match value with
    | .int n =>
      if 0 < n then
        if n < 0x100000000 then .ok (.ofNat n.toNat) else .error (.tooLarge quantity n)
      else .error (.notPositive quantity value)
    | .text _ => .error (.notPositive quantity value)

def color : Option (List Char) → Except Fault Color
  | none => .error .missingColor
  | some token =>
    match Color.ofHex? token with
    | some color => .ok color
    | none => .error (.invalidColor (String.ofList token))

/-- The pattern that the words behind the size name, and the words left over. No words at all name
the gradient. -/
def pattern (bindings : Bindings) :
    List (List Char) → Except Fault (Pattern × List (List Char))
  | [] => .ok (.gradient, [])
  | name :: rest => do
    if name = "gradient".toList then
      return (.gradient, rest)
    else if name = "checker".toList then
      let cell ← positive bindings .cell rest.head?
      let even ← color rest.tail.head?
      let odd ← color rest.tail.tail.head?
      return (.checker cell even odd, rest.tail.tail.tail)
    else if name = "solid".toList then
      let flat ← color rest.head?
      return (.solid flat, rest.tail)
    else
      throw (.unknownPattern (String.ofList name))

/-- The picture that the words of a scene statement declare: width, height and pattern. -/
def picture (bindings : Bindings) (arguments : List (List Char)) : Except Fault Picture := do
  let width ← positive bindings .width arguments.head?
  let height ← positive bindings .height arguments.tail.head?
  let (found, extra) ← pattern bindings arguments.tail.tail
  match extra with
  | [] => return ⟨⟨width, height⟩, found⟩
  | token :: _ => throw (.unexpected (String.ofList token))

end RenderFarm.Language
