import ShapeForge.Number.Shortest
import ShapeForge.Rdf.Literal

/-!
# Values for builders

What can be handed to a builder: scalars, texts, terms, and things that stand for a node. Values
have a text, from which literals are made, unless they are integers too long to be written; some
values are nodes.
-/

namespace ShapeForge

open Rdf (Literal LiteralError Term)

inductive Value where
  | null
  | bool (value : Bool)
  | int (value : Int)
  | double (value : Double)
  | text (value : String)
  | term (value : Term)
  /-- A builder or a wrapped node, with its display text. -/
  | entity (display : String) (node : Term)
  | record
  | sequence
deriving Repr, DecidableEq

/-- Why a value has no node. -/
structure NotANode where
  kind : String
deriving Repr, DecidableEq

/-- The wording for a value without a node. -/
def NotANode.message (e : NotANode) : String := s!"Cannot use {e.kind} as an RDF node"

namespace Value

def kind : Value → String
  | .null => "NoneType"
  | .bool _ => "bool"
  | .int _ => "int"
  | .double _ => "float"
  | .text _ => "str"
  | .term (.iri _) => "URIRef"
  | .term (.blank _) => "BNode"
  | .term (.literal _) => "Literal"
  | .entity .. => "object"
  | .record => "dict"
  | .sequence => "list"

/-- The wording for a value that no graph stands behind. -/
def notBacked (v : Value) : String := s!"Object is not RDF-backed: {v.kind}"

/-- The text of a value. -/
def lexical : Value → Except LiteralError String
  | .null => .ok "None"
  | .bool b => .ok (if b then "true" else "false")
  | .int i => if Numeral.isWritable i then .ok (toString i) else .error .longInteger
  | .double d => .ok d.text
  | .text s => .ok s
  | .term t => .ok t.text
  | .entity display _ => .ok display
  | .record => .ok "\x7b\x7d"
  | .sequence => .ok "[]"

/-- The node that a value stands for: a text is an IRI. -/
def node : Value → Except NotANode Term
  | .term t => .ok t
  | .entity _ node => .ok node
  | .text s => .ok (.iri s)
  | v => .error ⟨v.kind⟩

/-- The literal of a value. A language tag wins over the datatype, and a text of the datatype of
texts carries none. -/
def literal [Rdf.Datatypes] (v : Value) (datatype lang : Option String) :
    Except LiteralError Literal := do
  let lexical ← v.lexical
  match lang, datatype with
  | some tag, _ => Literal.tagged lexical tag
  | none, none => return .plain lexical
  | none, some datatype =>
    if datatype = Rdf.xsd "string" then return .plain lexical
    else return .typed lexical datatype

end Value

end ShapeForge
