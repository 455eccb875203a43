import ShapeForge.Context.Reader
import ShapeForge.Model.Basic
import ShapeForge.Shape.Extraction

/-!
# Reading ontologies

An ontology is read from a shapes graph and an optional context. The graph is read first, then its
shapes, then the context.
-/

namespace ShapeForge

/-- Why there is no ontology. -/
inductive OntologyError where
  | shape (error : ShapeError)
  | context (source : String) (error : ContextError)
deriving Repr, DecidableEq

def OntologyError.message : OntologyError → String
  | .shape e => e.message
  | .context source e => e.message source

namespace Ontology

/-- Reads a context under the name of its document; without one the context is empty. -/
def readContext [Platform] (source : String) : Option Json → Except OntologyError Context
  | none => .ok {}
  | some document => (Context.ofJson document).mapError (.context source)

def ofGraph [Platform] (source : String) (context : Option Json) (g : Rdf.Graph) :
    Noted OntologyError Ontology := do
  let shapes ← (Shape.shapesOf g).adapt .shape
  let context ← liftM (readContext s!"{source} (context)" context)
  return { shapes, context, classes := Shape.classesOf g shapes, source }

def ofText [Platform] (source format text : String) (context : Option Json) :
    Noted OntologyError Ontology := do
  let g ← liftM ((loadGraph source format text).mapError OntologyError.shape)
  ofGraph source context g

/-- The classes that shapes target, each once. -/
def targetsOf (shapes : List NodeShape) : List DeclaredClass :=
  (Shape.distinct (shapes.map NodeShape.targetClass)).map fun iri =>
    { iri, name := Naming.classNameFor iri }

/-- The ontology of shapes; without classes, those that the shapes target. -/
def ofShapes (shapes : List NodeShape) (classes : Option (List DeclaredClass))
    (context : Context) : Ontology :=
  { shapes, context, classes := classes.getD (targetsOf shapes) }

end Ontology

end ShapeForge
