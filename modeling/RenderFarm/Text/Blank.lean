/-!
# Blank characters, and cutting text at them

The blanks are the characters with the Unicode property White_Space. Text is cut as a list of
characters: into lines, into words, at the first character of a class, and trimmed at both ends.
-/

namespace RenderFarm.Text

/-- The code points with the property White_Space, as closed ranges in ascending order. -/
def blankRanges : List (Nat × Nat) :=
  [(0x9, 0xD), (0x20, 0x20), (0x85, 0x85), (0xA0, 0xA0), (0x1680, 0x1680), (0x2000, 0x200A),
    (0x2028, 0x2029), (0x202F, 0x202F), (0x205F, 0x205F), (0x3000, 0x3000)]

def isBlank (c : Char) : Bool :=
  blankRanges.any fun range => range.1 ≤ c.toNat && c.toNat ≤ range.2

/-- What is left when the blanks at both ends are gone. -/
def trim (text : List Char) : List Char :=
  ((text.dropWhile isBlank).reverse.dropWhile isBlank).reverse

/-- The pieces between line feeds, one more than there are line feeds. A carriage return before a
line feed stays at the end of its line, where it is a blank. -/
def lines (text : List Char) : List (List Char) :=
  text.splitOn '\n'

/-- The maximal pieces without a blank, in order. -/
def words (text : List Char) : List (List Char) :=
  (text.splitOnP isBlank).filter fun piece => !piece.isEmpty

/-- The text before the first character that satisfies `cut` and the text behind it. -/
def splitFirst (cut : Char → Bool) (text : List Char) : Option (List Char × List Char) :=
  match text.dropWhile fun c => !cut c with
  | [] => none
  | _ :: rest => some (text.takeWhile fun c => !cut c, rest)

/-! ## Small laws -/

theorem lines_append_lineFeed (before after : List Char) :
    lines (before ++ '\n' :: after) = lines before ++ lines after :=
  List.splitOnP_append_cons before after (by simp)

end RenderFarm.Text
