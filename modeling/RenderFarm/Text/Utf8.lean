/-!
# Lossy UTF-8 decoding

`decodeLossy` reads bytes as UTF-8 text. Each maximal prefix of an ill-formed sequence that could
still have become a character is replaced by one U+FFFD; a byte that can start nothing is a prefix
of its own. Decoding starts afresh behind every character and every replacement.
-/

namespace RenderFarm.Text

/-- What stands in the text for bytes that are no character. -/
def replacement : Char := '\uFFFD'

/-- A byte that carries six bits of a character begun earlier. -/
def isTail (byte : UInt8) : Bool :=
  0x80 ≤ byte && byte ≤ 0xBF

/-- How many bytes follow a lead byte, and the least and greatest value of the first of them; none
for a byte that leads no sequence of several bytes. -/
def followers? (lead : UInt8) : Option (Nat × UInt8 × UInt8) :=
  if 0xC2 ≤ lead && lead ≤ 0xDF then some (1, 0x80, 0xBF)
  else if lead == 0xE0 then some (2, 0xA0, 0xBF)
  else if lead == 0xED then some (2, 0x80, 0x9F)
  else if 0xE1 ≤ lead && lead ≤ 0xEF then some (2, 0x80, 0xBF)
  else if lead == 0xF0 then some (3, 0x90, 0xBF)
  else if 0xF1 ≤ lead && lead ≤ 0xF3 then some (3, 0x80, 0xBF)
  else if lead == 0xF4 then some (3, 0x80, 0x8F)
  else none

/-- The character that a lead byte and its tail bytes spell: the lead gives its low bits, each
tail byte six more. -/
def assemble (lead : UInt8) (tail : List UInt8) : Char :=
  let head := lead.toNat % (64 >>> tail.length)
  Char.ofNat (tail.foldl (fun code byte => 64 * code + byte.toNat % 64) head)

/-- The longest admissible tail of a lead byte: the first byte between `low` and `high`, the
others between 80 and BF, at most `count` in all. -/
def tailOf (count : Nat) (low high : UInt8) (bytes : List UInt8) : List UInt8 :=
  match count, bytes with
  | count + 1, byte :: rest =>
    if low ≤ byte && byte ≤ high then byte :: tailOf count 0x80 0xBF rest else []
  | _, _ => []

/-- The first character of a text and how many bytes it takes beyond its first. -/
def decodeHead (lead : UInt8) (rest : List UInt8) : Char × Nat :=
  if lead < 0x80 then (Char.ofNat lead.toNat, 0)
  else
    match followers? lead with
    | none => (replacement, 0)
    | some (count, low, high) =>
      let tail := tailOf count low high rest
      (if tail.length = count then assemble lead tail else replacement, tail.length)

def decodeLossy : List UInt8 → List Char
  | [] => []
  | lead :: rest =>
    let head := decodeHead lead rest
    head.1 :: decodeLossy (rest.drop head.2)
termination_by bytes => bytes.length
decreasing_by simp only [List.length_drop, List.length_cons]; omega

end RenderFarm.Text
