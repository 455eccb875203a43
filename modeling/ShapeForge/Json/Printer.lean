import ShapeForge.Json.Basic
import ShapeForge.Number.Numeral
import ShapeForge.Number.Shortest
import ShapeForge.Text.Quoted

/-!
# Writing JSON

JSON texts in ASCII: in one line, or with every item and every field on a line of its own. A value
with an integer of too many digits has no text.
-/

namespace ShapeForge.Json

/-- The escape of a code unit. -/
def escapeUnit (n : Nat) : List Char := '\\' :: 'u' :: Text.hexDigits 4 n

/-- How a character is written in a string. -/
def escapeChar (c : Char) : List Char :=
  if c == '"' || c == '\\' then ['\\', c]
  else if c == '\n' then ['\\', 'n']
  else if c == '\r' then ['\\', 'r']
  else if c == '\t' then ['\\', 't']
  else if c == '\x08' then ['\\', 'b']
  else if c == '\x0c' then ['\\', 'f']
  else if ' ' ≤ c && c ≤ '~' then [c]
  else if c.toNat < 0x10000 then escapeUnit c.toNat
  else
    let n := c.toNat - 0x10000
    escapeUnit (0xD800 + n / 0x400) ++ escapeUnit (0xDC00 + n % 0x400)

/-- A string with its quotes. -/
def quote (s : String) : String :=
  String.ofList ('"' :: s.toList.flatMap escapeChar ++ ['"'])

mutual

/-- The text of a value in one line. -/
def compact : Json → String
  | .null => "null"
  | .bool b => if b then "true" else "false"
  | .int i => toString i
  | .double d => Shortest.Format.json.write d
  | .text s => quote s
  | .list items => "[" ++ compactItems items ++ "]"
  | .object fields => "\x7b" ++ compactFields fields ++ "\x7d"

def compactItems : List Json → String
  | [] => ""
  | [item] => compact item
  | item :: rest => compact item ++ ", " ++ compactItems rest

def compactFields : List (String × Json) → String
  | [] => ""
  | [(key, value)] => quote key ++ ": " ++ compact value
  | (key, value) :: rest => quote key ++ ": " ++ compact value ++ ", " ++ compactFields rest

end

/-- A new line at a depth of nesting, two spaces a level. -/
def newline (depth : Nat) : String := "\n" ++ String.ofList (List.replicate (2 * depth) ' ')

mutual

/-- The text of a value over several lines. -/
def pretty (depth : Nat) : Json → String
  | .list (item :: items) =>
    "[" ++ newline (depth + 1) ++ prettyItems (depth + 1) (item :: items) ++ newline depth ++ "]"
  | .object (field :: fields) =>
    "\x7b" ++ newline (depth + 1) ++ prettyFields (depth + 1) (field :: fields) ++ newline depth
      ++ "\x7d"
  | value => compact value

def prettyItems (depth : Nat) : List Json → String
  | [] => ""
  | [item] => pretty depth item
  | item :: rest => pretty depth item ++ "," ++ newline depth ++ prettyItems depth rest

def prettyFields (depth : Nat) : List (String × Json) → String
  | [] => ""
  | [(key, value)] => quote key ++ ": " ++ pretty depth value
  | (key, value) :: rest =>
    quote key ++ ": " ++ pretty depth value ++ "," ++ newline depth ++ prettyFields depth rest

end

mutual

/-- Whether every integer in a value can be written. -/
def isWritable : Json → Bool
  | .int i => Numeral.isWritable i
  | .list items => areWritable items
  | .object fields => haveWritable fields
  | _ => true

def areWritable : List Json → Bool
  | [] => true
  | item :: rest => isWritable item && areWritable rest

def haveWritable : List (String × Json) → Bool
  | [] => true
  | (_, value) :: rest => isWritable value && haveWritable rest

end

/-- The text of a value over several lines, if it has one. -/
def pretty? (value : Json) : Option String :=
  if value.isWritable then some (value.pretty 0) else none

end ShapeForge.Json
