import ShapeForge.Json.Basic
import ShapeForge.Number.Numeral

/-!
# Reading JSON

The reader takes strict JSON, and besides it the three words for the values that are no finite
numbers. Of two fields with one key the later value stands in the place of the earlier one. Lists
and objects may be nested only so deep, and integers have no more digits than are read anywhere
else; of several faults of a text, the first one in reading order is the one that is reported.
-/

namespace ShapeForge.Json

/-- Why a text is not read. -/
inductive Fault where
  | malformed
  | longInteger (digits : Nat)
  | tooDeep
deriving Repr, DecidableEq

/-- The blanks between the tokens. -/
def isGap (c : Char) : Bool := c == ' ' || c == '\t' || c == '\n' || c == '\r'

def skipGap (cs : List Char) : List Char := cs.dropWhile isGap

/-- The value of a hexadecimal digit. -/
def hexValue? (c : Char) : Option Nat :=
  if c.isDigit then some (c.toNat - '0'.toNat)
  else if 'a' ≤ c && c ≤ 'f' then some (c.toNat - 'a'.toNat + 10)
  else if 'A' ≤ c && c ≤ 'F' then some (c.toNat - 'A'.toNat + 10)
  else none

/-- The number that four hexadecimal digits write. -/
def hex4? (a b c d : Char) : Option Nat := do
  let a ← hexValue? a
  let b ← hexValue? b
  let c ← hexValue? c
  let d ← hexValue? d
  return ((a * 16 + b) * 16 + c) * 16 + d

/-- The character of a one-letter escape. -/
def escape? : Char → Option Char
  | '"' => some '"'
  | '\\' => some '\\'
  | '/' => some '/'
  | 'b' => some '\x08'
  | 'f' => some '\x0c'
  | 'n' => some '\n'
  | 'r' => some '\r'
  | 't' => some '\t'
  | _ => none

/-- Whether a code unit is the first half of a pair. -/
def isHighHalf (n : Nat) : Bool := 0xD800 ≤ n && n ≤ 0xDBFF

/-- Whether a code unit is the second half of a pair. -/
def isLowHalf (n : Nat) : Bool := 0xDC00 ≤ n && n ≤ 0xDFFF

/-- The character of a code unit that stands alone. Half of a pair is no character: one for private
use stands for it, for each half another, so that keys stay apart. -/
def unitChar (n : Nat) : Char :=
  if isHighHalf n || isLowHalf n then Char.ofNat (0x10F800 + (n - 0xD800)) else Char.ofNat n

/-- Reads the characters of a string up to its closing quote, and what follows it. -/
def string? : List Char → Option (List Char × List Char)
  | [] => none
  | '"' :: rest => some ([], rest)
  | '\\' :: 'u' :: a :: b :: c :: d :: '\\' :: 'u' :: e :: f :: g :: h :: rest =>
    match hex4? a b c d, hex4? e f g h with
    | some hi, some lo =>
      if isHighHalf hi && isLowHalf lo then
        (string? rest).map fun (s, after) =>
          (Char.ofNat (0x10000 + (hi - 0xD800) * 0x400 + (lo - 0xDC00)) :: s, after)
      else
        -- The second escape may be the first half of another pair, so it is read again.
        (string? ('\\' :: 'u' :: e :: f :: g :: h :: rest)).map fun (s, after) =>
          (unitChar hi :: s, after)
    | _, _ => none
  | '\\' :: 'u' :: a :: b :: c :: d :: rest =>
    match hex4? a b c d with
    | some n => (string? rest).map fun (s, after) => (unitChar n :: s, after)
    | none => none
  | '\\' :: c :: rest =>
    match escape? c with
    | some e => (string? rest).map fun (s, after) => (e :: s, after)
    | none => none
  | c :: rest =>
    if c.toNat < 0x20 then none else (string? rest).map fun (s, after) => (c :: s, after)

/-- The ASCII digits at the front and what follows. -/
def spanDigits (cs : List Char) : List Char × List Char := cs.span Char.isDigit

/-- The digits of a fraction at the front, if there is a point and a digit behind it. -/
def fraction (cs : List Char) : Option (List Char) × List Char :=
  match cs with
  | '.' :: rest =>
    match spanDigits rest with
    | ([], _) => (none, cs)
    | (digits, after) => (some digits, after)
  | _ => (none, cs)

/-- The exponent at the front, if there is a mark and a digit behind it. -/
def exponent (cs : List Char) : Option Int × List Char :=
  match cs with
  | c :: rest =>
    if c == 'e' || c == 'E' then
      let (negative, rest) := Numeral.takeSign rest
      match spanDigits rest with
      | ([], _) => (none, cs)
      | (digits, after) =>
        (some (Numeral.signed negative (Numeral.ofDigits (digits.filterMap hexValue?))), after)
    else
      (none, cs)
  | [] => (none, cs)

/-- Reads a number. A leading zero stands alone. -/
def readNumber (cs : List Char) : Except Fault (Json × List Char) :=
  let (negative, cs) := match cs with
    | '-' :: rest => (true, rest)
    | _ => (false, cs)
  let (whole, rest) := match cs with
    | '0' :: rest => (['0'], rest)
    | _ => spanDigits cs
  if whole.isEmpty then
    .error .malformed
  else
    match fraction rest with
    | (part, rest) =>
      match exponent rest with
      | (power, rest) =>
        let digits := (whole ++ part.getD []).filterMap hexValue?
        if part.isNone && power.isNone then
          if digits.length ≤ Numeral.maxIntegerDigits then
            .ok (.int (Numeral.signed negative (Numeral.ofDigits digits)), rest)
          else
            .error (.longInteger digits.length)
        else
          let places : Int := (part.getD []).length
          let value := Double.ofDecimal negative (Numeral.ofDigits digits) (power.getD 0 - places)
          .ok (.double value, rest)

/-- Drops a word off the front. -/
def dropWord? (word : String) (cs : List Char) : Option (List Char) :=
  if word.toList.isPrefixOf cs then some (cs.drop word.length) else none

/-- The words that stand for values. -/
def wordValues : List (String × Json) :=
  [("null", .null), ("true", .bool true), ("false", .bool false), ("NaN", .double .nan),
    ("Infinity", .double (.infinite false)), ("-Infinity", .double (.infinite true))]

/-- Reads one of the words that stand for values. -/
def word? (cs : List Char) : Option (Json × List Char) :=
  wordValues.findSome? fun (word, value) => (dropWord? word cs).map fun rest => (value, rest)

/-- Reads a string up to its closing quote. -/
def readString (cs : List Char) : Except Fault (String × List Char) :=
  match string? cs with
  | some (s, rest) => .ok (String.ofList s, rest)
  | none => .error .malformed

mutual

/-- Reads a value at the front; lists and objects are nested at most `depth` deep. -/
def readValue : Nat → Nat → List Char → Except Fault (Json × List Char)
  | 0, _, _ => .error .malformed
  | fuel + 1, depth, cs =>
    match cs with
    | '"' :: rest => (readString rest).map fun (s, after) => (.text s, after)
    | '[' :: rest =>
      match depth with
      | 0 => .error .tooDeep
      | depth + 1 =>
        match skipGap rest with
        | ']' :: after => .ok (.list [], after)
        | rest => (readItems fuel depth rest).map fun (items, after) => (.list items, after)
    | '\x7b' :: rest =>
      match depth with
      | 0 => .error .tooDeep
      | depth + 1 =>
        match skipGap rest with
        | '\x7d' :: after => .ok (.object [], after)
        | rest => (readFields fuel depth [] rest).map fun (fields, after) => (.object fields, after)
    | cs =>
      match word? cs with
      | some found => .ok found
      | none => readNumber cs

/-- Reads the items of a list up to its end. -/
def readItems : Nat → Nat → List Char → Except Fault (List Json × List Char)
  | 0, _, _ => .error .malformed
  | fuel + 1, depth, cs => do
    let (item, rest) ← readValue fuel depth cs
    match skipGap rest with
    | ',' :: rest =>
      let (items, after) ← readItems fuel depth (skipGap rest)
      return (item :: items, after)
    | ']' :: after => return ([item], after)
    | _ => throw .malformed

/-- Reads the fields of an object up to its end, after the ones already read. -/
def readFields : Nat → Nat → List (String × Json) → List Char →
    Except Fault (List (String × Json) × List Char)
  | 0, _, _, _ => .error .malformed
  | fuel + 1, depth, before, cs =>
    match cs with
    | '"' :: rest => do
      let (key, rest) ← readString rest
      match skipGap rest with
      | ':' :: rest =>
        let (value, rest) ← readValue fuel depth (skipGap rest)
        let fields := Assoc.put key value before
        match skipGap rest with
        | ',' :: rest => readFields fuel depth fields (skipGap rest)
        | '\x7d' :: after => return (fields, after)
        | _ => throw .malformed
      | _ => throw .malformed
    | _ => .error .malformed

end

/-- Reads a JSON text: one value and nothing after it. Every step takes a character off, so the
length of the text is fuel enough. -/
def read (depth : Nat) (text : String) : Except Fault Json := do
  let cs := text.toList
  let (value, rest) ← readValue (cs.length + 1) depth (skipGap cs)
  if (skipGap rest).isEmpty then return value else throw .malformed

end ShapeForge.Json
