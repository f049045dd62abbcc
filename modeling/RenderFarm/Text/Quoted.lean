import RenderFarm.Text.Visible

/-!
# Quoted text

A text in double quotes in which every character is visible: quotes, backslashes and the common
controls get a short escape, other invisible or attaching characters their code point in braces.
-/

namespace RenderFarm.Text

/-- The letter that stands behind a backslash for a character with a short escape. -/
def shortEscape? (c : Char) : Option Char :=
  match c with
  | '\x00' => some '0'
  | '\t' => some 't'
  | '\n' => some 'n'
  | '\r' => some 'r'
  | '"' => some '"'
  | '\\' => some '\\'
  | _ => none

/-- A code point escape: a `u` and the hexadecimal code point in braces. -/
def codeEscape (c : Char) : List Char :=
  '\\' :: 'u' :: '\x7b' :: Nat.toDigits 16 c.toNat ++ ['\x7d']

def escaped (c : Char) : List Char :=
  match shortEscape? c with
  | some letter => ['\\', letter]
  | none => if isAttaching c || !isPrintable c then codeEscape c else [c]

def quoted (text : String) : String :=
  String.ofList ('"' :: text.toList.flatMap escaped ++ ['"'])

end RenderFarm.Text
