import ShapeForge.Context.Basic
import ShapeForge.Rdf.Vocabulary
import ShapeForge.Shape.Basic

/-!
# Types of properties

The values of a property are literals of a scalar type, instances of an emitted class, or plain
resources. A class or a reference mark decides first, then the datatype of the shape, then that of
the context.
-/

namespace ShapeForge

/-- The types of literal values. -/
inductive ScalarType where
  | text
  | integer
  | real
  | boolean
deriving Repr, DecidableEq

namespace ScalarType

/-- The name of a scalar type in the emitted source. -/
def name : ScalarType → String
  | .text => "str"
  | .integer => "int"
  | .real => "float"
  | .boolean => "bool"

/-- Whether values of the type can be bounded. -/
def isNumeric : ScalarType → Bool
  | .integer | .real => true
  | _ => false

/-- The scalar type of a datatype; an unknown datatype keeps its text. -/
def ofDatatype (datatype : Option String) : ScalarType :=
  match datatype with
  | none => .text
  | some d =>
    if d = Rdf.xsd "int" || d = Rdf.xsd "integer" then .integer
    else if d = Rdf.xsd "double" || d = Rdf.xsd "float" then .real
    else if d = Rdf.xsd "boolean" then .boolean
    else .text

end ScalarType

/-- What the values of a property are. -/
inductive TargetType where
  | literal (type : ScalarType) (datatype : Option String)
  /-- Instances of an emitted class, which stands in a module. -/
  | object (className moduleName : String)
  /-- Nodes without an emitted class. -/
  | resource
deriving Repr, DecidableEq

namespace TargetType

def kind : TargetType → String
  | .literal .. => "literal"
  | .object .. => "object"
  | .resource => "resource"

/-- The name of a type in annotations. -/
def name : TargetType → String
  | .literal type _ => type.name
  | .object className _ => className
  | .resource => "Node"

def datatype : TargetType → Option String
  | .literal _ datatype => datatype
  | _ => none

def moduleName : TargetType → Option String
  | .object _ moduleName => some moduleName
  | _ => none

def isNumeric : TargetType → Bool
  | .literal type _ => type.isNumeric
  | _ => false

def isText : TargetType → Bool
  | .literal .text _ => true
  | _ => false

end TargetType

/-- The names of an emitted class. -/
structure ClassNames where
  className : String
  moduleName : String
  builderName : String
deriving Repr, DecidableEq

namespace PropertyShape

/-- Whether a property needs a value. -/
def isRequired (p : PropertyShape) : Bool := 1 ≤ p.constraints.minCount

/-- Whether a property can have several values: its greatest count is above one or absent. -/
def isList (p : PropertyShape) : Bool := p.constraints.maxCount.all fun n => 1 < n

/-- The type of a property, given the context and the names of the emitted classes. -/
def targetType (context : Context) (names : List (String × ClassNames)) (p : PropertyShape) :
    TargetType :=
  let definition := (context.termFor? p.path).map (·.2)
  if p.targetClass.isSome || definition.any TermDefinition.isReference then
    match p.targetClass.bind fun iri => if iri.isEmpty then none else Assoc.get? iri names with
    | some found => .object found.className found.moduleName
    | none => .resource
  else
    let datatype := p.datatype.or (definition.bind TermDefinition.type)
    .literal (.ofDatatype datatype) datatype

end PropertyShape

end ShapeForge
