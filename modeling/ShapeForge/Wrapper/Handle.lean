import ShapeForge.Validation.Rule

/-!
# Handles

A handle is a focus node with what is known about it: the predicates that accessors read, and the
rules that it is validated by. What accessors do not read are its extras, which are gathered at
the first use and do not change any more.
-/

namespace ShapeForge

open Rdf (Graph Term)

namespace Rdf.Term

/-- A term as source code. -/
def code : Term → String
  | .iri s => "rdflib.term.URIRef(" ++ Text.quoted s ++ ")"
  | .blank label => "rdflib.term.BNode(" ++ Text.quoted label.text ++ ")"
  | .literal l =>
    let marks := (l.lang.map fun tag => ", lang=" ++ Text.quoted tag).getD ""
      ++ (l.datatype.map fun d => ", datatype=rdflib.term.URIRef(" ++ Text.quoted d ++ ")").getD ""
    "rdflib.term.Literal(" ++ Text.quoted l.lexical ++ marks ++ ")"

end Rdf.Term

namespace Rdf.Graph

/-- The literal values of a predicate; malformed ones are left out. -/
def literals (g : Graph) (node : Term) (predicate : String) (type : ValueType) :
    List ScalarValue :=
  (g.objects node (.iri predicate)).filterMap type.readTerm?

/-- The IRIs and blank nodes of a predicate. -/
def resources (g : Graph) (node : Term) (predicate : String) : List Term :=
  (g.objects node (.iri predicate)).filter Term.isResource

end Rdf.Graph

/-- The triples of a node that no accessor reads, by predicate. -/
structure Extras where
  groups : List (Term × List Term)

namespace Extras

/-- Adds a value to the group of its predicate, which is a new one at the end if there is none. -/
def file (predicate value : Term) : List (Term × List Term) → List (Term × List Term)
  | [] => [(predicate, [value])]
  | (p, values) :: rest =>
    if p.same predicate then (p, values ++ [value]) :: rest
    else (p, values) :: file predicate value rest

/-- Gathers the extras of a node: its triples are gone through, those with a known predicate are
left out, and the others are put into groups. -/
def gather (g : Graph) (node : Term) (known : List String) : Extras :=
  let free (t : Rdf.Triple) : Bool := !known.any fun iri => t.predicate.same (.iri iri)
  ⟨((g.byPredicate node).filter free).foldl
    (fun groups t => file t.predicate t.object groups) []⟩

/-- The predicates in the order of their texts. -/
def predicates (e : Extras) : List Term :=
  (e.groups.map (·.1)).mergeSort fun p q => decide (p.text ≤ q.text)

def values (e : Extras) (predicate : String) : List Term :=
  ((e.groups.find? fun (p, _) => p.same (.iri predicate)).map (·.2)).getD []

def literals (e : Extras) (predicate : String) : List Term :=
  (e.values predicate).filter Term.isLiteral

def strings (e : Extras) (predicate : String) : List String :=
  (e.literals predicate).map Term.text

def iris (e : Extras) (predicate : String) : List Term :=
  (e.values predicate).filter Term.isIri

def contains (e : Extras) (predicate : String) : Bool :=
  e.groups.any fun (p, _) => p.same (.iri predicate)

def resources (e : Extras) (predicate : String) : List Term :=
  (e.values predicate).filter Term.isResource

end Extras

/-- Violations that make a validation fail. -/
structure Invalid where
  subject : String
  violations : List Violation
deriving Repr, DecidableEq

def Invalid.message (e : Invalid) : String := failureMessage e.subject e.violations

/-- The texts that a violation is sorted by. -/
def Violation.key (v : Violation) : List String :=
  [v.property, v.constraint, v.value.getD "", v.message]

/-- The violations in an order that does not depend on the graph. -/
def Invalid.sorted (e : Invalid) : List Violation :=
  e.violations.mergeSort fun v w => Term.keyAtMost v.key w.key

/-- A focus node with what is known about it. -/
structure Handle where
  node : Term
  known : List String := []
  rules : Option (List Rule) := none
  extras : Option Extras := none

namespace Handle

def display (h : Handle) : String := "RdfHandle(" ++ h.node.code ++ ")"

/-- A handle on the same node with other knowledge. -/
def bind (h : Handle) (known : List String) (rules : Option (List Rule)) : Handle :=
  { node := h.node, known, rules }

/-- The values of a predicate, in the order of the graph. -/
def values (h : Handle) (g : Graph) (predicate : String) : List Term :=
  g.objects h.node (.iri predicate)

/-- The extras, which are gathered now if they were not yet. -/
def useExtras (h : Handle) (g : Graph) : Extras × Handle :=
  match h.extras with
  | some e => (e, h)
  | none =>
    let e := Extras.gather g h.node h.known
    (e, { h with extras := some e })

/-- The violations of the rules; none without rules. -/
def validate [Platform] (h : Handle) (g : Graph) : Except CheckError (List Violation) :=
  match h.rules with
  | none => .ok []
  | some rules => shapeViolations rules g h.node

end Handle

/-- The failure of a node with violations. -/
def invalid? (node : Term) (violations : List Violation) : Option Invalid :=
  if violations.isEmpty then none else some ⟨s!"{node.text} validation failed", violations⟩

end ShapeForge
