import ShapeForge.Rdf.Graph
import ShapeForge.Rdf.Iri
import ShapeForge.Rdf.Turtle.Token

/-!
# Turtle documents

A document is read statement by statement. The objects of one predicate are read before their
triples are inserted; nested property lists and collections insert their own triples while they
are read. The recursion is bounded by `fuel`, of which the length of the text gives enough.
-/

namespace ShapeForge.Rdf.Turtle

/-- What is known while a document is read. -/
structure Document where
  /-- The IRI that references are resolved against. -/
  base : List Char
  prefixes : List (String × String) := []
  labels : List (String × Nat) := []
  next : Nat := 0
  graph : Graph := .empty

/-- Reading changes the document and can fail. -/
abbrev Reading := StateT Document Option

def freshBlank : Reading Term := do
  let d ← get
  set { d with next := d.next + 1 }
  return .blank (.fresh d.next)

/-- The blank node of a label. -/
def labelled (label : String) : Reading Term := do
  let d ← get
  match d.labels.lookup label with
  | some n => return .blank (.fresh n)
  | none =>
    set { d with labels := (label, d.next) :: d.labels, next := d.next + 1 }
    return .blank (.fresh d.next)

/-- Inserts a triple. -/
def state (subject predicate object : Term) : Reading Unit :=
  modify fun d => { d with graph := d.graph.insert ⟨subject, predicate, object⟩ }

/-- The IRI of a reference. -/
def resolved (reference : List Char) : Reading String := do
  let iri ← resolve? (← get).base reference
  return String.ofList iri

/-- An IRI, as a reference or as a name with a prefix; `_:` names a blank node. -/
def name (cs : List Char) : Reading (Term × List Char) := do
  match iriReference cs with
  | some (reference, rest) => return (.iri (← resolved reference), rest)
  | none =>
    let (space, rest) ← namespacePart cs
    match (← get).prefixes.lookup space with
    | some iri =>
      let (localPart, rest) ← localName true rest
      return (.iri (iri ++ localPart), rest)
    | none =>
      if space = "_" then
        let (label, rest) ← localName false rest
        return (← labelled label, rest)
      else
        failure

/-- The literal of a string with the datatype or language tag that follows it. -/
def marked [Datatypes] (text : String) (cs : List Char) : Reading (Term × List Char) := do
  match cs with
  | '@' :: rest =>
    let (tag, rest) ← langTag rest
    -- A literal has a tag or a datatype, not both.
    if rest.take 2 = ['^', '^'] then
      failure
    return (.literal { lexical := text, lang := some tag }, rest)
  | '^' :: '^' :: rest =>
    let (datatype, rest) ← name (skip rest)
    return (.literal (.typed text datatype.text), rest)
  | _ => return (.literal (.plain text), cs)

def literal [Datatypes] (cs : List Char) : Reading (Term × List Char) := do
  match string cs with
  | some (text, rest) => marked text rest
  | none =>
    let (number, rest) ← numeral cs
    return (.literal number, rest)

/-- A term without parts: a boolean, a name or a literal. -/
def leaf [Datatypes] (cs : List Char) : Reading (Term × List Char) := do
  match word? "true" cs with
  | some rest => return (.literal (.typed "true" (xsd "boolean")), rest)
  | none =>
    match word? "false" cs with
    | some rest => return (.literal (.typed "false" (xsd "boolean")), rest)
    | none => name cs <|> literal cs

/-- Inserts the cells of a collection and gives its first one. -/
def collect : List Term → Reading Term
  | [] => return .iri rdfNil
  | item :: items => do
    let head ← freshBlank
    cells head item items
    return head
where
  /-- Inserts the cell of an item, then those after it. -/
  cells (cell item : Term) : List Term → Reading Unit
    | [] => do
      state cell (.iri rdfFirst) item
      state cell (.iri rdfRest) (.iri rdfNil)
    | next :: items => do
      -- The cell that is pointed to gets its number before this one is stated.
      let rest ← freshBlank
      state cell (.iri rdfFirst) item
      state cell (.iri rdfRest) rest
      cells rest next items

mutual

/-- A term: a property list, a collection or a leaf. -/
def term [Datatypes] : Nat → List Char → Reading (Term × List Char)
  | 0, _ => failure
  | fuel + 1, cs => do
    match skip cs with
    | '[' :: rest =>
      let node ← freshBlank
      match skip (← propertyList fuel node rest) with
      | ']' :: after => return (node, after)
      | _ => failure
    | '(' :: rest =>
      let (found, after) ← items fuel rest
      return (← collect found, after)
    | cs => leaf cs

/-- The items of a collection up to its end. -/
def items [Datatypes] : Nat → List Char → Reading (List Term × List Char)
  | 0, _ => failure
  | fuel + 1, cs => do
    match skip cs with
    | ')' :: rest => return ([], rest)
    | cs =>
      let (item, rest) ← term fuel cs
      let (more, rest) ← items fuel rest
      return (item :: more, rest)

/-- The predicates and objects of a subject. Semicolons may be repeated, and the list may be
empty. -/
def propertyList [Datatypes] : Nat → Term → List Char → Reading (List Char)
  | 0, _, _ => failure
  | fuel + 1, subject, cs => do
    match skip cs with
    | [] => return []
    | ';' :: rest => propertyList fuel subject rest
    | '.' :: rest => return '.' :: rest
    | ']' :: rest => return ']' :: rest
    | cs =>
      let (predicate, rest) ← match word? "a" cs with
        | some rest => pure (Term.iri rdfType, rest)
        | none => term fuel cs
      let (objects, rest) ← objectList fuel rest
      for object in objects do
        state subject predicate object
      match skip rest with
      | ';' :: rest => propertyList fuel subject rest
      | rest => return rest

/-- One or more objects with commas between them. -/
def objectList [Datatypes] : Nat → List Char → Reading (List Term × List Char)
  | 0, _ => failure
  | fuel + 1, cs => do
    let (object, rest) ← term fuel cs
    match skip rest with
    | ',' :: rest =>
      let (more, rest) ← objectList fuel rest
      return (object :: more, rest)
    | rest => return ([object], rest)

end

/-- Takes the base of a document. -/
def readBase (cs : List Char) : Reading (List Char) := do
  let (reference, rest) ← iriReference (skip cs)
  let iri ← resolved reference
  modify fun d => { d with base := iri.toList }
  return rest

/-- Takes the declaration of a prefix; a later one wins. -/
def readPrefix (cs : List Char) : Reading (List Char) := do
  let (space, rest) ← namespacePart (skip cs)
  let (reference, rest) ← iriReference (skip rest)
  let iri ← resolved reference
  modify fun d => { d with prefixes := (space, iri) :: d.prefixes }
  return rest

/-- The rest after the dot of a statement. -/
def dot (cs : List Char) : Reading (List Char) :=
  match skip cs with
  | '.' :: rest => pure rest
  | _ => failure

/-- Reads a directive or the triples of a subject. -/
def statement [Datatypes] (fuel : Nat) (cs : List Char) : Reading (List Char) :=
  -- The directives without `@` have no dot at their end.
  match anyCaseWord? "prefix" cs, anyCaseWord? "base" cs with
  | some rest, _ => readPrefix rest
  | none, some rest => readBase rest
  | none, none =>
    match word? "@prefix" cs, word? "@base" cs with
    | some rest, _ => do dot (← readPrefix rest)
    | none, some rest => do dot (← readBase rest)
    | none, none => do
      let (subject, rest) ← term fuel cs
      dot (← propertyList fuel subject rest)

/-- Reads statements up to the end of the text. -/
def statements [Datatypes] : Nat → List Char → Reading Unit
  | 0, _ => failure
  | fuel + 1, cs =>
    match skip cs with
    | [] => pure ()
    | cs => do statements fuel (← statement fuel cs)

/-- The graph of a text at a base. -/
def read? [Datatypes] (base text : String) : Option Graph :=
  let cs := text.toList
  ((statements (4 * cs.length + 8) cs).run { base := base.toList }).map fun (_, d) => d.graph

end ShapeForge.Rdf.Turtle
