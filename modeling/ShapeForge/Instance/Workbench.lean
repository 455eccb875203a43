import ShapeForge.Instance.Builder

/-!
# Builders at work

Builders by name, with a scope that they may share. A builder that is made apart from the shared
scope gets one of its own when it is first built. An operation that fails leaves the scopes and all
other builders as they are.
-/

namespace ShapeForge

open Rdf (Graph Term)

/-- Builders and the scope that they may share. -/
structure Workbench where
  scope : Scope := {}
  /-- The number of blank nodes made so far. -/
  blanks : Nat := 0
  builders : List (String × Builder × Attachment) := []

/-- What can be done at a workbench, each to the builder of a name. -/
inductive Operation where
  /-- Makes a builder, in the shared scope or apart from it. -/
  | create (name className classIri : String) (iri : Value) (joined : Bool)
  | keepLiteral (name : String) (keeping : Keeping) (rule : Rule) (value : Value)
    (datatype lang : Option String)
  | keepNode (name : String) (keeping : Keeping) (rule : Rule) (value : Value)
  /-- Asks for the triples of a builder over the graph that it sees. -/
  | toGraph (name : String)
  /-- Asks for the violations of rules by the node of a builder, in that graph. -/
  | validate (name : String) (rules : List Rule)
  | build (name : String)

inductive Answer where
  | builder (builder : Builder)
  | graph (graph : Graph)
  | violations (found : List Violation)
  /-- The node that was built, and the nodes of the scope that it was built into. -/
  | built (node : Term) (joined : Bool) (instances : List Term)

inductive OperationError where
  | unknownBuilder (name : String)
  | build (error : BuildError)
deriving Repr, DecidableEq

/-- Whether a builder builds into the shared scope. -/
def Attachment.isShared : Attachment → Bool
  | .shared => true
  | _ => false

namespace Workbench

/-- The builder of a name, as a value for other builders. -/
def entity? (w : Workbench) (name : String) : Option Value :=
  (Assoc.get? name w.builders).map fun (b, _) => .entity b.display b.node

/-- The workbench with another state of a builder. -/
def put (w : Workbench) (name : String) (b : Builder) (a : Attachment) : Workbench :=
  { w with builders := Assoc.put name (b, a) w.builders }

/-- Does something with the builder of a name, if there is one. -/
def withBuilder (w : Workbench) (name : String)
    (f : Builder → Attachment → Except OperationError Answer × Workbench) :
    Except OperationError Answer × Workbench :=
  match Assoc.get? name w.builders with
  | some (b, a) => f b a
  | none => (.error (.unknownBuilder name), w)

/-- Keeps what a setter made of a builder. -/
def keep (w : Workbench) (name : String) (a : Attachment) (set : Except BuildError Unit × Builder) :
    Except OperationError Answer × Workbench :=
  ((set.1.map fun _ => .builder set.2).mapError .build, w.put name set.2 a)

def perform [Platform] (w : Workbench) : Operation → Except OperationError Answer × Workbench
  | .create name className classIri iri joined =>
    match newNode w.blanks iri with
    | .error e => (.error (.build (.notANode e)), w)
    | .ok (node, blanks) =>
      let b : Builder := { className, classIri, node }
      (.ok (.builder b), { w with blanks }.put name b (if joined then .shared else .detached))
  | .keepLiteral name keeping rule value datatype lang =>
    w.withBuilder name fun b a => w.keep name a (b.keepLiteral keeping rule value datatype lang)
  | .keepNode name keeping rule value =>
    w.withBuilder name fun b a => w.keep name a (b.keepNode keeping rule value)
  | .toGraph name =>
    w.withBuilder name fun b a => (.ok (.graph (b.graphOver (a.graph w.scope))), w)
  | .validate name rules =>
    w.withBuilder name fun b a =>
      (((shapeViolations rules (b.graphOver (a.graph w.scope)) b.node).map .violations).mapError
        (.build ∘ .check), w)
  | .build name =>
    w.withBuilder name fun b a =>
      let (after, scope) := a.build b w.scope
      (.ok (.built b.node after.isShared (after.instances scope)),
        { w with scope }.put name b after)

end Workbench

end ShapeForge
