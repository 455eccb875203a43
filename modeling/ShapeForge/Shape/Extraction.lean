import ShapeForge.Naming.Identifier
import ShapeForge.Notice
import ShapeForge.Platform
import ShapeForge.Rdf.Collection
import ShapeForge.Shape.Order

/-!
# Shapes of a graph

Node shapes are read in the order of their nodes and target classes. A shape without a target
class and a property without a single predicate as its path are left out with a notice. A count,
length, bound or order that is no number is an error.
-/

namespace ShapeForge

open Rdf (Graph Term)

/-- Why a document gives no shapes. -/
inductive ShapeError where
  /-- The text is not of its format, or the format is unknown. -/
  | unreadable (source : String)
  | notInteger (field shape value : String)
  | notNumeric (field shape value : String)
  /-- An infinite value where an integer is needed, or an integer beyond all doubles. -/
  | overflow
  | cyclicList
deriving Repr, DecidableEq

def ShapeError.message : ShapeError → String
  | .unreadable source => s!"{source}: <parser error>"
  | .notInteger field shape value =>
    s!"<string>: {field} in {shape} must be an integer, got '{value}'"
  | .notNumeric field shape value =>
    s!"<string>: {field} in {shape} must be numeric, got '{value}'"
  | .overflow => "number out of range"
  | .cyclicList => "List contains a recursive rdf:rest reference"

/-- Reads the graph of a text in a named format. -/
def loadGraph [Platform] (source format text : String) : Except ShapeError Graph :=
  match Platform.parse format text with
  | some g => .ok g
  | none => .error (.unreadable source)

namespace Shape

/-- A number that cannot be had from a term. -/
inductive NumberFault where
  | malformed
  | overflow
deriving Repr, DecidableEq

def integerOfText (text : String) : Except NumberFault Int :=
  match Numeral.integer? text with
  | some i => .ok i
  | none => .error .malformed

def doubleOfText (text : String) : Except NumberFault Double :=
  match Numeral.double? text with
  | some d => .ok d
  | none => .error .malformed

/-- The integer that a value stands for; fractions are dropped. -/
def integerOf : Rdf.LiteralValue → Except NumberFault Int
  | .integer i => .ok i
  | .boolean b => .ok (if b then 1 else 0)
  | .double d =>
    match d, d.truncate? with
    | _, some i => .ok i
    | .infinite _, none => .error .overflow
    | _, none => .error .malformed
  | .decimal d =>
    match d, d.truncate? with
    | _, some i => .ok i
    | .infinite _, none => .error .overflow
    | _, none => .error .malformed
  | .text s => integerOfText s
  | .other _ => .error .malformed

/-- The double nearest to a value. An integer beyond all doubles has none. -/
def doubleOf : Rdf.LiteralValue → Except NumberFault Double
  | .integer i =>
    match Double.ofInt i with
    | .infinite _ => .error .overflow
    | d => .ok d
  | .boolean b => .ok (Double.ofInt (if b then 1 else 0))
  | .double d => .ok d
  | .decimal d =>
    match d.toDouble? with
    | some d => .ok d
    | none => .error .malformed
  | .text s => doubleOfText s
  | .other _ => .error .malformed

/-- Reads a term through the value of a literal, or through the text of another term. -/
def readTerm [Rdf.Datatypes] {α : Type} (ofValue : Rdf.LiteralValue → α) (ofText : String → α) :
    Term → α
  | .literal l => ofValue l.value
  | t => ofText t.text

/-- The first object of a node under a term of SHACL. -/
def field? (g : Graph) (node : Term) (name : String) : Option Term :=
  g.object? node (.iri (Rdf.sh name))

def textField? (g : Graph) (node : Term) (name : String) : Option String :=
  (field? g node name).map Term.text

def integerField? [Rdf.Datatypes] (g : Graph) (shape : String) (node : Term) (name : String) :
    Except ShapeError (Option Int) :=
  match field? g node name with
  | none => .ok none
  | some t =>
    match readTerm integerOf integerOfText t with
    | .ok i => .ok (some i)
    | .error .malformed => .error (.notInteger name shape t.text)
    | .error .overflow => .error .overflow

def doubleField? [Rdf.Datatypes] (g : Graph) (shape : String) (node : Term) (name : String) :
    Except ShapeError (Option Double) :=
  match field? g node name with
  | none => .ok none
  | some t =>
    match readTerm doubleOf doubleOfText t with
    | .ok d => .ok (some d)
    | .error .malformed => .error (.notNumeric name shape t.text)
    | .error .overflow => .error .overflow

/-- The texts of the items of a list field. -/
def listField? (g : Graph) (node : Term) (name : String) :
    Except ShapeError (Option (List String)) :=
  match field? g node name with
  | none => .ok none
  | some head =>
    match g.listItems head with
    | some items => .ok (some (items.map Term.text))
    | none => .error .cyclicList

def constraintsOf [Rdf.Datatypes] (g : Graph) (shape : String) (node : Term) :
    Except ShapeError Constraints := do
  let minCount ← integerField? g shape node "minCount"
  let maxCount ← integerField? g shape node "maxCount"
  let minLength ← integerField? g shape node "minLength"
  let maxLength ← integerField? g shape node "maxLength"
  let inValues ← listField? g node "in"
  let minInclusive ← doubleField? g shape node "minInclusive"
  let maxInclusive ← doubleField? g shape node "maxInclusive"
  let minExclusive ← doubleField? g shape node "minExclusive"
  let maxExclusive ← doubleField? g shape node "maxExclusive"
  return {
    minCount := minCount.getD 0
    maxCount, minLength, maxLength, inValues
    pattern := textField? g node "pattern"
    flags := textField? g node "flags"
    minInclusive := minInclusive.map .double
    maxInclusive := maxInclusive.map .double
    minExclusive := minExclusive.map .double
    maxExclusive := maxExclusive.map .double
    hasValue := textField? g node "hasValue" }

/-- The property shape of a node with the given path. -/
def propertyAt [Rdf.Datatypes] (g : Graph) (shape path : String) (node : Term) :
    Except ShapeError PropertyShape := do
  let constraints ← constraintsOf g shape node
  let order ← doubleField? g shape node "order"
  return {
    path, constraints, order
    name := (textField? g node "name").getD (Naming.localName path)
    description := (textField? g node "description").getD ""
    datatype := textField? g node "datatype"
    targetClass := textField? g node "class"
    nodeKind := textField? g node "nodeKind" }

/-- The property shape of a node, unless its path cannot be used. -/
def propertyOf [Rdf.Datatypes] (g : Graph) (shape : String) (node : Term) :
    Noted ShapeError (Option PropertyShape) :=
  match field? g node "path" with
  | none => do
    Noted.note (.noPath shape)
    return none
  | some (.iri path) => some <$> liftM (propertyAt g shape path node)
  | some _ => do
    Noted.note (.complexPath shape)
    return none

/-- The properties of a shape node, in their order. -/
def propertiesOf [Rdf.Datatypes] (g : Graph) (node : Term) :
    Noted ShapeError (List PropertyShape) := do
  let found ← (g.objects node (.iri (Rdf.sh "property"))).mapM (propertyOf g node.text)
  return arranged (found.filterMap id)

/-- The node shapes of one shape node. -/
def shapesAt [Rdf.Datatypes] (g : Graph) (node : Term) : Noted ShapeError (List NodeShape) := do
  let targets := (g.objects node (.iri (Rdf.sh "targetClass"))).filterMap Term.iri?
  if targets.isEmpty then
    Noted.note (.noTargetClass node.text)
    return []
  let properties ← propertiesOf g node
  return targets.map fun target => { iri := node.text, targetClass := target, properties }

/-- The node shapes of a graph. -/
def shapesOf [Rdf.Datatypes] (g : Graph) : Noted ShapeError (List NodeShape) := do
  let nodes := Rdf.distinctTerms (g.subjects (.iri Rdf.rdfType) (.iri (Rdf.sh "NodeShape")))
  let shapes ← nodes.mapM (shapesAt g)
  return shapes.flatten

def shapesOfText [Platform] (source format text : String) : Noted ShapeError (List NodeShape) := do
  let g ← liftM (loadGraph source format text)
  shapesOf g

/-- The instances of a class of classes. -/
def instancesOf (g : Graph) (kind : String) : List String :=
  (g.subjects (.iri Rdf.rdfType) (.iri kind)).filterMap Term.iri?

/-- The two ends of every subclass statement between IRIs. -/
def subClassEnds (g : Graph) : List String :=
  (g.byObject (.iri Rdf.rdfsSubClassOf)).flatMap fun t =>
    match t.subject, t.object with
    | .iri sub, .iri super => [sub, super]
    | _, _ => []

/-- The IRIs of the classes that a graph knows about: the targets of shapes, then the declared
ones, then those that are only referred to. -/
def classIris (g : Graph) (shapes : List NodeShape) : List String :=
  shapes.map NodeShape.targetClass ++ instancesOf g Rdf.rdfsClass ++ instancesOf g Rdf.owlClass
    ++ (g.byObject (.iri (Rdf.sh "class"))).filterMap (·.object.iri?) ++ subClassEnds g

/-- The direct super classes of a class. -/
def supersOf (g : Graph) (iri : String) : List String :=
  (g.objects (.iri iri) (.iri Rdf.rdfsSubClassOf)).filterMap Term.iri?

/-- The texts without the repeated ones, in order of first occurrence. -/
def distinct (texts : List String) : List String :=
  texts.foldl (fun seen t => if seen.contains t then seen else seen ++ [t]) []

/-- The classes of a graph, each once. -/
def classesOf (g : Graph) (shapes : List NodeShape) : List DeclaredClass :=
  (distinct (classIris g shapes)).map fun iri =>
    { iri, name := Naming.classNameFor iri, supers := supersOf g iri }

end Shape

end ShapeForge
