import ShapeForge.Json.Basic
import ShapeForge.Shape.Basic

/-!
# Shapes as JSON

The fields of shapes, of their properties and of declared classes. The constraints of a property
stand beside its other fields.
-/

namespace ShapeForge

namespace Json

/-- A value or null. -/
def ofOption {α : Type} (encode : α → Json) : Option α → Json
  | some a => encode a
  | none => .null

/-- An integer; a boolean counts as one. -/
def int? : Json → Option Int
  | .int i => some i
  | .bool b => some (if b then 1 else 0)
  | _ => none

/-- A number; a boolean counts as one. -/
def bound? : Json → Option Bound
  | .double d => some (.double d)
  | j => j.int?.map .int

def ofBound : Bound → Json
  | .int i => .int i
  | .double d => .double d

end Json

def Constraints.toJson (c : Constraints) : Json := .object [
  ("min_count", .int c.minCount),
  ("max_count", .ofOption .int c.maxCount),
  ("min_length", .ofOption .int c.minLength),
  ("max_length", .ofOption .int c.maxLength),
  ("pattern", .ofText? c.pattern),
  ("flags", .ofText? c.flags),
  ("in_values", .ofOption .texts c.inValues),
  ("min_inclusive", .ofOption .ofBound c.minInclusive),
  ("max_inclusive", .ofOption .ofBound c.maxInclusive),
  ("min_exclusive", .ofOption .ofBound c.minExclusive),
  ("max_exclusive", .ofOption .ofBound c.maxExclusive),
  ("has_value", .ofText? c.hasValue)]

/-- Constraints from JSON; fields that are absent or of another kind count for nothing. -/
def Constraints.ofJson (j : Json) : Constraints :=
  let int (key : String) : Option Int := (j.get? key).bind Json.int?
  let bound (key : String) : Option Bound := (j.get? key).bind Json.bound?
  let text (key : String) : Option String := (j.get? key).bind Json.text?
  { minCount := (int "min_count").getD 0
    maxCount := int "max_count"
    minLength := int "min_length"
    maxLength := int "max_length"
    pattern := text "pattern"
    flags := text "flags"
    inValues := ((j.get? "in_values").filter Json.isList).map fun items =>
      items.items.filterMap Json.text?
    minInclusive := bound "min_inclusive"
    maxInclusive := bound "max_inclusive"
    minExclusive := bound "min_exclusive"
    maxExclusive := bound "max_exclusive"
    hasValue := text "has_value" }

def PropertyShape.toJson (p : PropertyShape) : Json := .object ([
  ("path", .text p.path),
  ("name", .text p.name),
  ("description", .text p.description),
  ("datatype", .ofText? p.datatype),
  ("target_class", .ofText? p.targetClass),
  ("node_kind", .ofText? p.nodeKind),
  ("order", .ofOption .double p.order)] ++ p.constraints.toJson.fields)

def PropertyShape.ofJson (j : Json) : PropertyShape :=
  let text (key : String) : Option String := (j.get? key).bind Json.text?
  { path := (text "path").getD ""
    name := (text "name").getD ""
    description := (text "description").getD ""
    datatype := text "datatype"
    targetClass := text "target_class"
    constraints := .ofJson j
    nodeKind := text "node_kind"
    order := match j.get? "order" with
      | some (.double d) => some d
      | _ => none }

def NodeShape.toJson (s : NodeShape) : Json := .object [
  ("shape_iri", .text s.iri),
  ("target_class", .text s.targetClass),
  ("properties", .list (s.properties.map PropertyShape.toJson))]

def NodeShape.ofJson (j : Json) : NodeShape :=
  let text (key : String) : String := ((j.get? key).bind Json.text?).getD ""
  { iri := text "shape_iri"
    targetClass := text "target_class"
    properties := ((j.get? "properties").getD .null).items.map PropertyShape.ofJson }

def DeclaredClass.toJson (c : DeclaredClass) : Json := .object [
  ("class_iri", .text c.iri),
  ("class_name", .text c.name),
  ("super_classes", .texts c.supers)]

def DeclaredClass.ofJson (j : Json) : DeclaredClass :=
  let text (key : String) : String := ((j.get? key).bind Json.text?).getD ""
  { iri := text "class_iri"
    name := text "class_name"
    supers := ((j.get? "super_classes").getD .null).items.filterMap Json.text? }

end ShapeForge
