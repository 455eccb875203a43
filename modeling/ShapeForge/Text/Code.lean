/-!
# Code points in hexadecimal

Hexadecimal digits and the characters whose code points they write.
-/

namespace ShapeForge.Text

def isHex (c : Char) : Bool := c.isDigit || ('a' ≤ c && c ≤ 'f') || ('A' ≤ c && c ≤ 'F')

/-- The number that hexadecimal digits write. -/
def ofHex (cs : List Char) : Nat :=
  cs.foldl
    (fun n c =>
      16 * n + (if c.isDigit then c.toNat - '0'.toNat else c.toLower.toNat - 'a'.toNat + 10))
    0

/-- The character of a code point in hexadecimal. -/
def codeChar? (cs : List Char) : Option Char :=
  let n := ofHex cs
  if cs.all isHex && n.isValidChar then some (Char.ofNat n) else none

end ShapeForge.Text
