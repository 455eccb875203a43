import ShapeForge.Text.CharClass

/-!
# Quoted text

A text constant of the emitted source: the text between two quotes, with a backslash before what
would end it, and every character without a visible form written as an escape. The quote is the
single one, unless the text has single quotes and no double ones.
-/

namespace ShapeForge.Text

def hexDigit (n : Nat) : Char := Nat.digitChar (n % 16)

/-- The lowest `width` hexadecimal digits of a number. -/
def hexDigits : Nat → Nat → List Char
  | 0, _ => []
  | width + 1, n => hexDigits width (n / 16) ++ [hexDigit n]

/-- The escape of a character by its code point, as short as it allows. -/
def escapeCode (n : Nat) : List Char :=
  if n < 0x100 then '\\' :: 'x' :: hexDigits 2 n
  else if n < 0x10000 then '\\' :: 'u' :: hexDigits 4 n
  else '\\' :: 'U' :: hexDigits 8 n

/-- How a character is written between quotes. -/
def quoteChar (quote c : Char) : List Char :=
  if c == quote || c == '\\' then ['\\', c]
  else if c == '\n' then ['\\', 'n']
  else if c == '\r' then ['\\', 'r']
  else if c == '\t' then ['\\', 't']
  else if isPrintable c then [c]
  else escapeCode c.toNat

/-- The quote that a text gets. -/
def quoteFor (cs : List Char) : Char :=
  if cs.contains '\'' && !cs.contains '"' then '"' else '\''

/-- The characters of a quoted text. -/
def quoteChars (cs : List Char) : List Char :=
  let quote := quoteFor cs
  quote :: cs.flatMap (quoteChar quote) ++ [quote]

/-- A text as a constant of the emitted source. -/
def quoted (text : String) : String := String.ofList (quoteChars text.toList)

end ShapeForge.Text
