import ShapeForge.Naming.Words
import ShapeForge.Text.Keyword

/-!
# Identifiers from IRIs

The local name of an IRI is its fragment or its last path segment. Class names are its Pascal
case, accessor and module names its snake case; a name that means something else to the emitted
source gets an underscore at its end.
-/

namespace ShapeForge.Naming

/-- The members that every emitted class already has. -/
def reservedMembers : List String :=
  ["rdf", "node", "build", "validate", "CLASS_IRI", "PREDICATES", "KNOWN_PREDICATES", "scope",
    "triples", "to_graph", "predicate_for"]

/-- The characters after the last separator, or all of them when there is none. -/
def afterLast (separator : Char) (cs : List Char) : List Char :=
  (cs.reverse.takeWhile (· ≠ separator)).reverse

/-- Drops the separators at the end. -/
def dropTrailing (separator : Char) (cs : List Char) : List Char :=
  (cs.reverse.dropWhile (· = separator)).reverse

/-- The fragment after the last `#` or, without one, the last path segment less what stands up to
its last colon. -/
def localName (iri : String) : String :=
  let cs := iri.toList
  if cs.contains '#' then
    String.ofList (afterLast '#' cs)
  else
    String.ofList (afterLast ':' (afterLast '/' (dropTrailing '/' cs)))

/-- The class name of an IRI, before names are made unique. -/
def classNameFor (iri : String) : String := toPascalCase (localName iri)

/-- The accessor name for a property called `name`. -/
def propertyNameFor (name : String) : String :=
  let ident := toSnakeCase name
  if isKeyword ident || reservedMembers.contains ident then ident ++ "_" else ident

/-- The module name for a class called `className`. -/
def moduleNameFor (className : String) : String :=
  let ident := toSnakeCase className
  if isKeyword ident then ident ++ "_" else ident

end ShapeForge.Naming
