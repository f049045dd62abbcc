import RenderFarm.Language.Statement

/-!
# Evaluating source text

A source text is evaluated line by line. Lines that are blank or begin with a hash are skipped; the
first line that fails ends the evaluation, and what the lines before it bound and wrote stays.
`Language.evaluate` is total, so the language never panics.
-/

namespace RenderFarm.Language

/-- How far an evaluation has come: what is bound, the text of the last value, the last scene, and
what was written. -/
structure Progress where
  bindings : Bindings
  text : String
  scene : Option Picture
  /-- The texts written, the latest first. -/
  written : List String
  deriving DecidableEq

namespace Progress

def start (bindings : Bindings) : Progress :=
  ⟨bindings, "", none, []⟩

/-- The texts written, in order. -/
def writes (progress : Progress) : List String :=
  progress.written.reverse

/-- What a print statement shows: the value of a bound name, any other text as it stands. -/
def shown (bindings : Bindings) (rest : List Char) : String :=
  if isName rest then
    match bindings.get? (String.ofList rest) with
    | some value => value.render
    | none => String.ofList rest
  else String.ofList rest

/-- The scene statement's text, for instance `<scene 4x3>`. -/
def sceneText (size : Dimensions) : String :=
  s!"<scene {size.width}x{size.height}>"

/-- One statement. One that fails changes nothing. -/
def perform (progress : Progress) : Statement → Except Fault Progress
  | .print rest =>
    .ok { progress with written := "\n" :: shown progress.bindings rest :: progress.written }
  | .raise rest =>
    .error (.raised (if rest.isEmpty then "exception raised" else String.ofList rest))
  | .scene arguments => do
    let built ← picture progress.bindings arguments
    return { progress with text := sceneText built.size, scene := some built }
  | .assign target source => do
    if isName target then
      let value ← readValue progress.bindings source
      return { progress with
        text := value.render
        bindings := progress.bindings.insert (String.ofList target) value }
    else
      throw (.invalidTarget (String.ofList target))
  | .echo line => do
    if isName line then
      let value ← lookupName progress.bindings line
      return { progress with text := value.render }
    else
      throw (.unreadable (String.ofList line))

/-- One line with its blanks still around it. -/
def performLine (progress : Progress) (raw : List Char) : Except Fault Progress :=
  match Text.trim raw with
  | [] => .ok progress
  | '#' :: _ => .ok progress
  | line => progress.perform (Statement.ofLine line)

/-- The lines from number `line` on, up to the first that fails. -/
def performLines (line : Nat) (progress : Progress) :
    List (List Char) → Progress × Option LineFault
  | [] => (progress, none)
  | raw :: rest =>
    match progress.performLine raw with
    | .ok next => next.performLines (line + 1) rest
    | .error fault => (progress, some ⟨line, fault⟩)

end Progress

/-- How far a source text gets, and the fault that stopped it. -/
def run (bindings : Bindings) (source : String) : Progress × Option LineFault :=
  (Progress.start bindings).performLines 1 (Text.lines source.toList)

def evaluate (bindings : Bindings) (source : String) : Evaluation Bindings Picture :=
  let (progress, fault) := run bindings source
  match fault with
  | none => ⟨progress.writes, .success progress.bindings progress.text progress.scene⟩
  | some located => ⟨progress.writes, .failure progress.bindings located.message⟩

instance : Scene Picture where
  size picture := picture.size
  drawRow picture row := (picture.drawRow row).map fun colors => (colors, picture)

instance : Evaluator Bindings Picture where
  evaluate := evaluate
  names bindings := .known bindings.names

end RenderFarm.Language
