/-!
# RDF terms

IRIs, blank nodes and literals. Two terms are the same node of a graph when they are equal up to
the case of a language tag (`Term.same`).
-/

namespace ShapeForge.Rdf

/-- What tells blank nodes apart: an identifier that somebody chose, or a running number. -/
inductive BlankLabel where
  | named (id : String)
  | fresh (number : Nat)
deriving Repr, DecidableEq

/-- The text of a blank node. A running number is never shown. -/
def BlankLabel.text : BlankLabel → String
  | .named id => id
  | .fresh _ => "<bnode>"

/-- A literal: a text with a datatype or a language tag or neither. -/
structure Literal where
  lexical : String
  datatype : Option String := none
  lang : Option String := none
deriving Repr, DecidableEq

inductive Term where
  | iri (text : String)
  | blank (label : BlankLabel)
  | literal (value : Literal)
deriving Repr, DecidableEq

/-- A language tag in small letters. -/
def foldLang (tag : String) : String := String.ofList (tag.toList.map Char.toLower)

/-- The literal with its language tag in small letters. -/
def Literal.folded (l : Literal) : Literal := { l with lang := l.lang.map foldLang }

namespace Term

/-- The text of a term: the IRI, the label, or the lexical form. -/
def text : Term → String
  | .iri s => s
  | .blank label => label.text
  | .literal l => l.lexical

def isLiteral : Term → Bool
  | .literal _ => true
  | _ => false

def isIri : Term → Bool
  | .iri _ => true
  | _ => false

/-- Whether the term can have properties of its own: an IRI or a blank node. -/
def isResource (t : Term) : Bool := !t.isLiteral

def iri? : Term → Option String
  | .iri s => some s
  | _ => none

/-- The term with its language tag in small letters. -/
def folded : Term → Term
  | .literal l => .literal l.folded
  | t => t

/-- Whether two terms are the same node of a graph. -/
def same (a b : Term) : Bool := a.folded == b.folded

theorem same_refl (t : Term) : t.same t = true := by simp [same]

theorem same_comm (a b : Term) : a.same b = b.same a := by
  simp only [same]
  exact Bool.beq_comm

/-- Whether texts to sort by come no later than others. -/
def keyAtMost (a b : List String) : Bool := !List.lex b a fun x y => decide (x < y)

/-- The kind of a term, its text, its datatype and its language tag, as texts to sort by. -/
def sortKey : Term → List String
  | .iri s => ["iri", s, "", ""]
  | .blank label => ["bnode", label.text, "", ""]
  | .literal l => ["lit", l.lexical, l.datatype.getD "", l.lang.getD ""]

end Term

end ShapeForge.Rdf
