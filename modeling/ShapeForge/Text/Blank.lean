/-!
# Blank characters

The blank characters of Unicode text, and the operations that cut a text at them: stripping both
ends, and splitting into the words between runs of blanks.
-/

namespace ShapeForge.Text

/-- The blank characters: the ASCII controls that move the caret, the four separators of
information, the spaces of Unicode, and its separators of lines and paragraphs. -/
def isBlank (c : Char) : Bool :=
  let n := c.toNat
  (0x09 ≤ n && n ≤ 0x0D) || (0x1C ≤ n && n ≤ 0x20) || n == 0x85 || n == 0xA0 || n == 0x1680
    || (0x2000 ≤ n && n ≤ 0x200A) || n == 0x2028 || n == 0x2029 || n == 0x202F || n == 0x205F
    || n == 0x3000

/-- Drops the characters of a class at both ends. -/
def stripBy (p : Char → Bool) (cs : List Char) : List Char :=
  ((cs.dropWhile p).reverse.dropWhile p).reverse

def strip (cs : List Char) : List Char := stripBy isBlank cs

/-- The maximal runs of characters that are not blank, in order. -/
def splitBlank : List Char → List (List Char)
  | [] => []
  | c :: rest =>
    if isBlank c then
      splitBlank rest
    else
      match rest, splitBlank rest with
      | d :: _, word :: more => if isBlank d then [c] :: word :: more else (c :: word) :: more
      | _, more => [c] :: more

/-- Every run of blanks made one space, and none at the ends. -/
def collapseBlank (text : String) : String :=
  String.ofList ([' '].intercalate (splitBlank text.toList))

end ShapeForge.Text
