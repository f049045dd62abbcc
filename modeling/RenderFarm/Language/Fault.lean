import RenderFarm.Language.Value

/-!
# Faults of the scene language

Each way in which a line can fail, and the words for it.
-/

namespace RenderFarm.Language

/-- A number that a scene statement asks for. -/
inductive Quantity where
  | width
  | height
  | cell
  deriving DecidableEq

def Quantity.label : Quantity → String
  | width => "width"
  | height => "height"
  | cell => "checker size"

inductive Fault where
  | undefinedName (name : String)
  | invalidValue (token : String)
  | missing (quantity : Quantity)
  | tooLarge (quantity : Quantity) (value : Int)
  | notPositive (quantity : Quantity) (value : Value)
  | missingColor
  | invalidColor (token : String)
  | unknownPattern (token : String)
  | unexpected (token : String)
  | invalidTarget (name : String)
  | unreadable (line : String)
  | raised (message : String)
  deriving DecidableEq

def Fault.message : Fault → String
  | undefinedName name => "name '" ++ name ++ "' is not defined"
  | invalidValue token => "invalid value \x60" ++ token ++ "\x60"
  | missing quantity => "missing " ++ quantity.label
  | tooLarge quantity value =>
    quantity.label ++ " " ++ String.ofList (Text.intDigits value) ++ " is too large"
  | notPositive quantity value =>
    quantity.label ++ " must be a positive integer, got " ++ value.render
  | missingColor => "missing color"
  | invalidColor token => "invalid color \x60" ++ token ++ "\x60"
  | unknownPattern token => "unknown pattern \x60" ++ token ++ "\x60"
  | unexpected token => "unexpected \x60" ++ token ++ "\x60 after pattern"
  | invalidTarget name => "cannot assign to \x60" ++ name ++ "\x60"
  | unreadable line => "cannot parse \x60" ++ line ++ "\x60"
  | raised message => message

/-- A fault with the number of its line, counted from 1. -/
structure LineFault where
  line : Nat
  fault : Fault
  deriving DecidableEq

def LineFault.message (located : LineFault) : String :=
  s!"line {located.line}: " ++ located.fault.message

end RenderFarm.Language
