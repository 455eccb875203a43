import ShapeForge.Rdf.Turtle.Document

/-!
# N-Triples

One triple a line, with full IRIs and without abbreviations. Empty lines and comments count for
nothing.
-/

namespace ShapeForge.Rdf.NTriples

open Turtle (Reading labelled state)

def skipSpace (cs : List Char) : List Char := cs.dropWhile fun c => c = ' ' || c = '\t'

/-- Cuts a text into lines; a line ends with a carriage return, a line feed or both. -/
def lines : List Char → List (List Char)
  | [] => [[]]
  | '\r' :: '\n' :: rest => [] :: lines rest
  | c :: rest =>
    if c = '\r' || c = '\n' then
      [] :: lines rest
    else
      match lines rest with
      | [] => [[c]]
      | line :: more => (c :: line) :: more

/-- An absolute IRI between angle brackets. -/
def iri (cs : List Char) : Option (String × List Char) := do
  let (reference, rest) ← Turtle.iriReference cs
  let stops (c : Char) : Bool := Text.isBlank c || c = '"' || c = '<'
  match reference.span (· ≠ ':') with
  | (_ :: _, ':' :: more) => if more.any stops then none else some (String.ofList reference, rest)
  | _ => none

/-- Whether a character can start or end the label of a blank node. -/
def isLabelChar (c : Char) : Bool := c.isAlphanum || c = '_' || c = ':'

def blank (cs : List Char) : Reading (Term × List Char) := do
  match cs with
  | '_' :: ':' :: c :: rest =>
    if !isLabelChar c then
      failure
    let body := rest.takeWhile fun c => isLabelChar c || c = '-' || c = '.'
    let kept := (body.reverse.dropWhile (· = '.')).reverse
    return (← labelled (String.ofList (c :: kept)), rest.drop kept.length)
  | _ => failure

/-- A subject. -/
def resource (cs : List Char) : Reading (Term × List Char) :=
  match iri cs with
  | some (text, rest) => pure (.iri text, rest)
  | none => blank cs

/-- Reads a string up to its closing quote; an escape that is none stays. -/
def stringBody : List Char → Option (List Char × List Char)
  | '\\' :: 'u' :: a :: b :: c :: d :: rest =>
    (stringBody rest).map fun (text, after) =>
      ((Text.codeChar? [a, b, c, d]).elim (['\\', 'u', a, b, c, d] ++ text) (· :: text), after)
  | '\\' :: 'U' :: a :: b :: c :: d :: e :: f :: g :: h :: rest =>
    (stringBody rest).map fun (text, after) =>
      ((Text.codeChar? [a, b, c, d, e, f, g, h]).elim
        (['\\', 'U', a, b, c, d, e, f, g, h] ++ text) (· :: text), after)
  | '\\' :: c :: rest =>
    (stringBody rest).map fun (text, after) =>
      match Turtle.stringEscape? c with
      | some x => (x :: text, after)
      | none => ('\\' :: c :: text, after)
  | '"' :: rest => some ([], rest)
  | c :: rest => (stringBody rest).map fun (text, after) => (c :: text, after)
  | [] => none

def literal [Datatypes] (cs : List Char) : Option (Term × List Char) :=
  match cs with
  | '"' :: rest => do
    let (body, rest) ← stringBody rest
    let text := String.ofList body
    match rest with
    | '@' :: rest =>
      let (tag, rest) ← Turtle.langTag rest
      return (.literal { lexical := text, lang := some tag }, rest)
    | '^' :: '^' :: rest =>
      let (datatype, rest) ← iri rest
      return (.literal (.typed text datatype), rest)
    | _ => return (.literal (.plain text), rest)
  | _ => none

def object [Datatypes] (cs : List Char) : Reading (Term × List Char) :=
  match literal cs with
  | some found => pure found
  | none => resource cs

/-- Whether only the dot of a triple is left, or a comment after it. -/
def isTail (cs : List Char) : Bool :=
  match skipSpace cs with
  | '.' :: rest =>
    match skipSpace rest with
    | [] => true
    | c :: _ => c = '#'
  | _ => false

def line [Datatypes] (cs : List Char) : Reading Unit := do
  let cs := skipSpace cs
  if !(cs.isEmpty || cs.head? = some '#') then
    let (subject, rest) ← resource cs
    let (predicate, rest) ← iri (skipSpace rest)
    let (value, rest) ← object (skipSpace rest)
    if !isTail rest then
      failure
    state subject (.iri predicate) value

/-- The graph of a text. Its IRIs are absolute, so there is no base. -/
def read? [Datatypes] (text : String) : Option Graph :=
  (((lines text.toList).forM line).run { base := [] }).map fun (_, d) => d.graph

end ShapeForge.Rdf.NTriples
