import ShapeForge.Number.Double
import ShapeForge.Text.Blank
import ShapeForge.Text.CharClass

/-!
# Reading numerals

Integers and doubles as a lenient reader takes them: blanks around the numeral, a sign, digits of
any script, and single underscores between two digits.
-/

namespace ShapeForge.Numeral

/-- The blanks that may stand around a numeral: all but the separators of information. -/
def isMargin (c : Char) : Bool :=
  Text.isBlank c && !(0x1C ≤ c.toNat && c.toNat ≤ 0x1F)

/-- The most digits an integer may have, to be read or to be written. -/
def maxIntegerDigits : Nat := 4300

def isWritable (i : Int) : Bool := decide (i.natAbs < Nat.pow 10 maxIntegerDigits)

/-- Takes a sign off the front; true for a minus. -/
def takeSign : List Char → Bool × List Char
  | '-' :: rest => (true, rest)
  | '+' :: rest => (false, rest)
  | cs => (false, cs)

/-- The digits at the front, with single underscores between two of them left out, and what
follows. -/
def takeDigits : List Char → List Nat × List Char
  | [] => ([], [])
  | [c] =>
    match Text.decimalValue? c with
    | none => ([], [c])
    | some d => ([d], [])
  | c :: next :: rest =>
    match Text.decimalValue? c with
    | none => ([], c :: next :: rest)
    | some d =>
      if next == '_' then
        match takeDigits rest with
        | ([], _) => ([d], next :: rest)
        | (ds, after) => (d :: ds, after)
      else
        let (ds, after) := takeDigits (next :: rest)
        (d :: ds, after)

/-- The number that digits write. -/
def ofDigits (digits : List Nat) : Nat := digits.foldl (fun n d => 10 * n + d) 0

def signed (negative : Bool) (n : Nat) : Int := if negative then -n else n

def integer? (text : String) : Option Int :=
  let (negative, cs) := takeSign (Text.stripBy isMargin text.toList)
  match takeDigits cs with
  | ([], _) => none
  | (digits, []) =>
    if digits.length ≤ maxIntegerDigits then some (signed negative (ofDigits digits)) else none
  | _ => none

/-- Reads the exponent at the end of a numeral; an absent one is zero. -/
def exponent? : List Char → Option Int
  | [] => some 0
  | c :: rest =>
    if c == 'e' || c == 'E' then
      let (negative, cs) := takeSign rest
      match takeDigits cs with
      | ([], _) => none
      | (digits, []) => some (signed negative (ofDigits digits))
      | _ => none
    else
      none

/-- Reads an unsigned decimal: its coefficient and its exponent. There is a digit before the point
or behind it. -/
def decimal? (cs : List Char) : Option (Nat × Int) :=
  let (whole, rest) := takeDigits cs
  let (fraction, rest) := match rest with
    | '.' :: after => takeDigits after
    | _ => ([], rest)
  if whole.isEmpty && fraction.isEmpty then
    none
  else
    (exponent? rest).map fun e => (ofDigits (whole ++ fraction), e - fraction.length)

/-- Whether the characters spell the small ASCII word in any case. -/
def spells (word : String) (cs : List Char) : Bool := cs.map Char.toLower == word.toList

/-- Reads a double, also an infinity or not-a-number in any case. -/
def double? (text : String) : Option Double :=
  let (negative, cs) := takeSign (Text.stripBy isMargin text.toList)
  if spells "inf" cs || spells "infinity" cs then some (.infinite negative)
  else if spells "nan" cs then some .nan
  else (decimal? cs).map fun (c, e) => Double.ofDecimal negative c e

end ShapeForge.Numeral
