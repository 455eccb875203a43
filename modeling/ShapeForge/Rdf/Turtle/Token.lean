import ShapeForge.Rdf.Literal
import ShapeForge.Text.Code

/-!
# Tokens of Turtle

Scanners for the leaves of a Turtle text: gaps, names, IRI references, strings and numerals. Each
takes a token off the front and returns it with the rest, or nothing if there is no such token.
-/

namespace ShapeForge.Rdf.Turtle

open Text (codeChar? isHex)

/-- Drops blanks and comments; a comment ends with its line. -/
def skipGap (inComment : Bool) : List Char → List Char
  | [] => []
  | c :: rest =>
    if inComment then skipGap (c ≠ '\n') rest
    else if c = '#' then skipGap true rest
    else if c = ' ' || c = '\t' || c = '\r' || c = '\n' then skipGap false rest
    else c :: rest

def skip (cs : List Char) : List Char := skipGap false cs

/-- The characters that no name has in it. -/
def nameStops : List Char := "\t\r\n !\"#$&'()*,+/;<=>?@[\\]^\x60\x7b|\x7d~".toList

def stopsName (c : Char) : Bool := nameStops.contains c

/-- The characters that a backslash lets into a local name. -/
def localEscapes : List Char := "_~.-!$&'()*+,;=/?#@%".toList

/-- Reads a local name up to a stop; with `colons`, colons belong to it. -/
def localChars (colons : Bool) : List Char → Option (List Char × List Char)
  | '\\' :: c :: rest =>
    if localEscapes.contains c then
      (localChars colons rest).map fun (name, after) => (c :: name, after)
    else
      none
  | '%' :: a :: b :: rest =>
    if isHex a && isHex b then
      (localChars colons rest).map fun (name, after) => ('%' :: a :: b :: name, after)
    else
      none
  | c :: rest =>
    if c = '%' then none
    else if stopsName c || (c = ':' && !colons) then some ([], c :: rest)
    else (localChars colons rest).map fun (name, after) => (c :: name, after)
  | [] => some ([], [])

/-- A local name; a dot at its end is left to the statement. -/
def localName (colons : Bool) (cs : List Char) : Option (String × List Char) := do
  let (name, rest) ← localChars colons cs
  if name.getLast? = some '.' then
    if name.length = 1 then none else some (String.ofList name.dropLast, '.' :: rest)
  else
    some (String.ofList name, rest)

/-- The part of a name before its colon, with the rest after the colon. -/
def namespacePart (cs : List Char) : Option (String × List Char) :=
  match cs with
  | [] => none
  | c :: _ =>
    if c.isDigit || c = '-' || c = '+' || c = '.' then
      none
    else
      match cs.span fun c => !stopsName c && c ≠ ':' with
      | (name, ':' :: rest) =>
        if name.getLast? = some '.' then none else some (String.ofList name, rest)
      | _ => none

/-- Replaces the escapes of code points. -/
def expandCodes : List Char → List Char
  | '\\' :: 'u' :: a :: b :: c :: d :: rest =>
    match codeChar? [a, b, c, d] with
    | some x => x :: expandCodes rest
    | none => '\\' :: 'u' :: expandCodes (a :: b :: c :: d :: rest)
  | '\\' :: 'U' :: a :: b :: c :: d :: e :: f :: g :: h :: rest =>
    match codeChar? [a, b, c, d, e, f, g, h] with
    | some x => x :: expandCodes rest
    | none => '\\' :: 'U' :: expandCodes (a :: b :: c :: d :: e :: f :: g :: h :: rest)
  | c :: rest => c :: expandCodes rest
  | [] => []

/-- An IRI reference between angle brackets. -/
def iriReference : List Char → Option (List Char × List Char)
  | '<' :: rest =>
    match rest.span (· ≠ '>') with
    | (body, '>' :: after) => some (expandCodes body, after)
    | _ => none
  | _ => none

/-- The character that a letter after a backslash stands for. -/
def stringEscape? : Char → Option Char
  | 'a' => some '\x07'
  | 'b' => some '\x08'
  | 'f' => some '\x0c'
  | 'n' => some '\n'
  | 'r' => some '\r'
  | 't' => some '\t'
  | 'v' => some '\x0b'
  | c => if c = '\\' || c = '"' || c.toNat = 39 then some c else none

/-- The quotes that end a long string: three of them, with up to two before that belong to the
text. -/
def longEnd? (quote : Char) (cs : List Char) : Option (List Char × List Char) :=
  let run := (cs.takeWhile (· = quote)).length
  if run < 3 then none
  else
    let own := min run 5 - 3
    some (List.replicate own quote, cs.drop (own + 3))

/-- Reads a string up to its closing quote, or three of them in a long string. Line breaks stand
in long strings only. -/
def stringBody (quote : Char) (long : Bool) : List Char → Option (List Char × List Char)
  | '\\' :: 'u' :: a :: b :: c :: d :: rest => do
    let x ← codeChar? [a, b, c, d]
    let (text, after) ← stringBody quote long rest
    return (x :: text, after)
  | '\\' :: 'U' :: a :: b :: c :: d :: e :: f :: g :: h :: rest => do
    let x ← codeChar? [a, b, c, d, e, f, g, h]
    let (text, after) ← stringBody quote long rest
    return (x :: text, after)
  | '\\' :: c :: rest => do
    let x ← stringEscape? c
    let (text, after) ← stringBody quote long rest
    return (x :: text, after)
  | c :: rest =>
    if c = '\\' then
      none
    else if c = quote then
      if long then
        match longEnd? quote (c :: rest) with
        | some found => some found
        | none => (stringBody quote long rest).map fun (text, after) => (c :: text, after)
      else
        some ([], rest)
    else if !long && (c = '\n' || c = '\r') then
      none
    else
      (stringBody quote long rest).map fun (text, after) => (c :: text, after)
  | [] => none

/-- A string in any of the four quotings. -/
def string (cs : List Char) : Option (String × List Char) :=
  match cs with
  | [] => none
  | quote :: rest =>
    if quote = '"' || quote.toNat = 39 then
      let long := rest.take 2 = [quote, quote]
      (stringBody quote long (if long then rest.drop 2 else rest)).map fun (text, after) =>
        (String.ofList text, after)
    else
      none

/-- A language tag, after its mark. -/
def langTag (cs : List Char) : Option (String × List Char) :=
  let (first, rest) := cs.span Char.isAlpha
  if first.isEmpty then none else some (subtags rest.length first rest)
where
  /-- Adds the subtags that follow. -/
  subtags : Nat → List Char → List Char → String × List Char
    | fuel + 1, tag, '-' :: rest =>
      let (next, after) := rest.span Char.isAlphanum
      if next.isEmpty then (String.ofList tag, '-' :: rest)
      else subtags fuel (tag ++ '-' :: next) after
    | _, tag, rest => (String.ofList tag, rest)

def sign : List Char → List Char × List Char
  | '-' :: rest => (['-'], rest)
  | '+' :: rest => (['+'], rest)
  | cs => ([], cs)

def exponent : List Char → Option (List Char × List Char)
  | c :: rest =>
    if c = 'e' || c = 'E' then
      let (s, rest) := sign rest
      let (digits, after) := rest.span Char.isDigit
      if digits.isEmpty then none else some (c :: s ++ digits, after)
    else
      none
  | [] => none

/-- A numeral with its datatype: a double has an exponent, a decimal a digit behind a point, and
an integer neither. -/
def numeral [Datatypes] (cs : List Char) : Option (Literal × List Char) :=
  let (s, cs) := sign cs
  let (whole, rest) := cs.span Char.isDigit
  let (fraction, rest') := match rest with
    | '.' :: more =>
      let (digits, after) := more.span Char.isDigit
      ('.' :: digits, after)
    | _ => ([], rest)
  let form (body : List Char) (datatype : String) :=
    Literal.typed (String.ofList (s ++ body)) (xsd datatype)
  if whole.isEmpty && fraction.length ≤ 1 then
    none
  else
    match exponent rest' with
    | some (e, after) => some (form (whole ++ fraction ++ e) "double", after)
    | none =>
      if 1 < fraction.length then
        some (form (whole ++ fraction) "decimal", rest')
      else
        let integer := form whole "integer"
        match integer.value with
        | .integer _ => some (integer, rest)
        | _ => none

/-- Drops a word that a name could not go on from. -/
def word? (word : String) (cs : List Char) : Option (List Char) :=
  let rest := cs.drop word.length
  if word.toList.isPrefixOf cs && rest.head?.all fun c => stopsName c || c = '.' then
    some rest
  else
    none

/-- Drops a word in any case that a blank or a bracket must follow. -/
def anyCaseWord? (word : String) (cs : List Char) : Option (List Char) :=
  let rest := cs.drop word.length
  if Numeral.spells word (cs.take word.length) && rest.head?.any stopsName then some rest else none

end ShapeForge.Rdf.Turtle
