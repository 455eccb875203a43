import ShapeForge.Json.Basic

/-!
# JSON-LD contexts

A context names things by short terms: prefixes stand for namespaces, types for class IRIs, and a
term definition ties an accessor name to a predicate and says what kind of values it has.
-/

namespace ShapeForge

/-- The type mark of a term whose values are references. -/
def referenceMark : String := "@id"

/-- What a context says about one term. -/
structure TermDefinition where
  /-- The predicate that the term stands for. -/
  id : String
  /-- A datatype, or the mark of references. -/
  type : Option String
  /-- The container as the document gives it. -/
  container : Json

/-- Whether the values of the term are references. -/
def TermDefinition.isReference (d : TermDefinition) : Bool := d.type == some referenceMark

/-- A context as it is read from a document. -/
structure Context where
  prefixes : List (String × String) := []
  types : List (String × String) := []
  terms : List (String × TermDefinition) := []
  base : Option String := none
  vocab : Option String := none

/-- The first term that stands for a predicate, with its definition. -/
def Context.termFor? (c : Context) (iri : String) : Option (String × TermDefinition) :=
  c.terms.find? fun (_, d) => d.id == iri

/-- Why a document gives no context. -/
inductive ContextError where
  | invalidJson
  | notAnObject
  | noContext
  | externalContext (reference : String)
  | unknownPrefix (name term : String)
  | unqualified (term : String)
  /-- An identifier or a type is no text. -/
  | notText
  /-- An integer has more digits than are read. -/
  | longInteger (digits : Nat)
  /-- Lists and objects are nested too deep. -/
  | tooDeep
deriving Repr, DecidableEq

/-- The wording of a context error. The errors of this reader start with the name of the
document. -/
def ContextError.message (source : String) : ContextError → String
  | .invalidJson => s!"{source}: invalid JSON"
  | .notAnObject => s!"{source}: JSON-LD document must be an object"
  | .noContext => s!"{source}: no @context found"
  | .externalContext reference =>
    s!"{source}: external @context references are not supported: {reference}"
  | .unknownPrefix name term => s!"{source}: unknown prefix '{name}' in '{term}'"
  | .unqualified term => s!"{source}: unqualified term '{term}' with no @vocab or @base"
  | .notText => s!"{source}: a term is not a text"
  | .longInteger digits =>
    s!"Exceeds the limit (4300 digits) for integer string conversion: value has {digits} digits; "
      ++ "use sys.set_int_max_str_digits() to increase the limit"
  | .tooDeep => "maximum recursion depth exceeded while decoding JSON"

end ShapeForge
