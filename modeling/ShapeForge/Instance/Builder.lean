import ShapeForge.Assoc
import ShapeForge.Validation.Rule
import ShapeForge.Value.Basic

/-!
# Builders

A builder gathers the values of one node and checks each of them when it is set. Building hands
the triples to a scope, which owns a graph and remembers the nodes that were built. A value that is
refused is not kept, though adding it makes a place for its predicate.
-/

namespace ShapeForge

open Rdf (Graph Term Triple)

/-- A graph under construction and the nodes built into it, in the order of their first build. -/
structure Scope where
  graph : Graph := .empty
  instances : List Term := []

/-- Takes the triples of a built node. -/
def Scope.add (s : Scope) (node : Term) (triples : List Triple) : Scope :=
  { graph := s.graph.insertAll triples
    instances := if s.instances.any node.same then s.instances else s.instances ++ [node] }

/-- Why a builder refuses a value. -/
inductive BuildError where
  | notANode (error : NotANode)
  | literal (error : Rdf.LiteralError)
  | violation (violation : Violation)
  | check (error : CheckError)
deriving Repr, DecidableEq

/-- How a value is kept: it replaces the others of its predicate, or it is added to them. -/
inductive Keeping where
  | replace
  | append
deriving Repr, DecidableEq

/-- The values gathered for a node. -/
structure Builder where
  /-- The name of the builder class. -/
  className : String
  /-- The class of the node; none if empty. -/
  classIri : String
  node : Term
  values : List (String × List Term) := []

namespace Builder

def display (b : Builder) : String := s!"<{b.className} {b.node.text}>"

/-- The triples of a builder: the class first, then the values by predicate. -/
def triples (b : Builder) : List Triple :=
  (if b.classIri.isEmpty then [] else [⟨b.node, .iri Rdf.rdfType, .iri b.classIri⟩])
    ++ b.values.flatMap fun (predicate, terms) =>
      terms.map fun t => ⟨b.node, .iri predicate, t⟩

/-- The triples of a builder over a graph. -/
def graphOver (b : Builder) (g : Graph) : Graph := g.insertAll b.triples

def valuesOf (b : Builder) (predicate : String) : List Term :=
  (Assoc.get? predicate b.values).getD []

def check [Platform] (b : Builder) (rule : Rule) (t : Term) : Except BuildError Unit :=
  match rule.firstViolation? b.node.text t with
  | .error e => .error (.check e)
  | .ok (some v) => .error (.violation v)
  | .ok none => .ok ()

/-- Sets or adds a value. -/
def keep [Platform] (b : Builder) (keeping : Keeping) (rule : Rule) (t : Term) :
    Except BuildError Unit × Builder :=
  let write (terms : List Term) : Builder :=
    { b with values := Assoc.put rule.path terms b.values }
  match keeping, b.check rule t with
  | .replace, .ok () => (.ok (), write [t])
  | .replace, .error e => (.error e, b)
  | .append, .ok () => (.ok (), write (b.valuesOf rule.path ++ [t]))
  -- The list to add to is made before the check.
  | .append, .error e => (.error e, write (b.valuesOf rule.path))

def keepLiteral [Platform] (b : Builder) (keeping : Keeping) (rule : Rule) (v : Value)
    (datatype lang : Option String) : Except BuildError Unit × Builder :=
  match v.literal datatype lang with
  | .ok l => b.keep keeping rule (.literal l)
  | .error e => (.error (.literal e), b)

def keepNode [Platform] (b : Builder) (keeping : Keeping) (rule : Rule) (v : Value) :
    Except BuildError Unit × Builder :=
  match v.node with
  | .ok t => b.keep keeping rule t
  | .error e => (.error (.notANode e), b)

def build (b : Builder) (s : Scope) : Scope := s.add b.node b.triples

end Builder

/-- The node of a new builder: the one that is given, or the next blank node. -/
def newNode (blanks : Nat) : Value → Except NotANode (Term × Nat)
  | .null => .ok (.blank (.named s!"gen{blanks + 1}"), blanks + 1)
  | v => v.node.map (·, blanks)

/-- A scope that a builder builds into: the shared one, one of its own, or none before its first
build. -/
inductive Attachment where
  | shared
  | own (scope : Scope)
  | detached

/-- The graph that a builder sees. -/
def Attachment.graph (shared : Scope) : Attachment → Graph
  | .shared => shared.graph
  | .own scope => scope.graph
  | .detached => .empty

/-- Builds into the scope of the attachment, which a detached builder makes; the result is the
attachment and the shared scope after it. -/
def Attachment.build (b : Builder) (shared : Scope) : Attachment → Attachment × Scope
  | .shared => (.shared, b.build shared)
  | .own scope => (.own (b.build scope), shared)
  | .detached => (.own (b.build {}), shared)

/-- The nodes built into the scope of the attachment. -/
def Attachment.instances (shared : Scope) : Attachment → List Term
  | .shared => shared.instances
  | .own scope => scope.instances
  | .detached => []

end ShapeForge
