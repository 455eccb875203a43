import ShapeForge.Model.Typing

/-!
# Class models

An ontology is what was read: shapes, classes and a context. A class model is one class as it is
emitted: with its names, its super classes, and its own and inherited properties.
-/

namespace ShapeForge

/-- The shapes and classes of a document, with a context for their names. -/
structure Ontology where
  shapes : List NodeShape
  context : Context := {}
  classes : List DeclaredClass
  source : String := "<string>"

namespace Ontology

/-- The shapes that target a class. -/
def shapesFor (o : Ontology) (iri : String) : List NodeShape :=
  o.shapes.filter fun s => s.targetClass == iri

/-- Whether a shape targets a class. -/
def hasShape (o : Ontology) (iri : String) : Bool := o.shapes.any fun s => s.targetClass == iri

/-- The classes that are emitted. -/
def matched (o : Ontology) : List DeclaredClass := o.classes.filter fun c => o.hasShape c.iri

/-- The classes that are left out, since no shape targets them. -/
def skipped (o : Ontology) : List String :=
  (o.classes.filter fun c => !o.hasShape c.iri).map DeclaredClass.iri

/-- The super classes that the first declaration of a class gives it. -/
def supersOf (o : Ontology) (iri : String) : List String :=
  ((o.classes.find? fun c => c.iri == iri).map DeclaredClass.supers).getD []

end Ontology

/-- A property of a class model. -/
structure PropertyModel where
  name : String
  iri : String
  type : TargetType
  isRequired : Bool
  isList : Bool
  constraints : Constraints
  description : String := ""
  inherited : Bool := false
deriving Repr, DecidableEq

/-- A class as it is emitted. -/
structure ClassModel where
  className : String
  iri : String
  builderName : String
  moduleName : String
  properties : List PropertyModel
  shapeIri : Option String := none
  /-- The names of the super classes. -/
  supers : List String := []
  description : String := ""
deriving Repr, DecidableEq

namespace ClassModel

/-- The properties that the shapes of the class itself declare. -/
def ownProperties (c : ClassModel) : List PropertyModel := c.properties.filter (!·.inherited)

/-- The predicates of the properties, each once. -/
def knownPredicates (c : ClassModel) : List String :=
  (c.properties.map PropertyModel.iri).foldl
    (fun seen iri => if seen.contains iri then seen else seen ++ [iri]) []

end ClassModel

end ShapeForge
