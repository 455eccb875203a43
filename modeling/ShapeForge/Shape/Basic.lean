import ShapeForge.Number.Bound

/-!
# Shapes

A node shape targets a class and constrains its properties. One shape node with several target
classes gives one node shape for each of them.
-/

namespace ShapeForge

/-- What the values of a property must satisfy. -/
structure Constraints where
  minCount : Int := 0
  maxCount : Option Int := none
  minLength : Option Int := none
  maxLength : Option Int := none
  pattern : Option String := none
  flags : Option String := none
  inValues : Option (List String) := none
  minInclusive : Option Bound := none
  maxInclusive : Option Bound := none
  minExclusive : Option Bound := none
  maxExclusive : Option Bound := none
  hasValue : Option String := none
deriving Repr, DecidableEq

/-- Whether single values are checked, apart from their type. -/
def Constraints.checksValues (c : Constraints) : Bool :=
  c.minLength.isSome || c.maxLength.isSome || c.pattern.isSome || c.inValues.isSome
    || c.minInclusive.isSome || c.maxInclusive.isSome || c.minExclusive.isSome
    || c.maxExclusive.isSome

/-- A property of a node shape. -/
structure PropertyShape where
  path : String
  name : String
  description : String := ""
  datatype : Option String := none
  targetClass : Option String := none
  constraints : Constraints := {}
  nodeKind : Option String := none
  order : Option Double := none
deriving Repr, DecidableEq

/-- A shape and one class that it targets. -/
structure NodeShape where
  iri : String
  targetClass : String
  properties : List PropertyShape := []
deriving Repr, DecidableEq

/-- A class that a shapes graph knows about. -/
structure DeclaredClass where
  iri : String
  name : String
  supers : List String := []
deriving Repr, DecidableEq

end ShapeForge
