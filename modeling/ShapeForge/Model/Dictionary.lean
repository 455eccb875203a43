import ShapeForge.Model.Basic
import ShapeForge.Shape.Dictionary

/-!
# Class models as JSON

The fields of a class model in the order in which reports show them.
-/

namespace ShapeForge

def TargetType.toJson (t : TargetType) : Json := .object [
  ("kind", .text t.kind),
  ("name", .text t.name),
  ("datatype", .ofText? t.datatype),
  ("module", .ofText? t.moduleName)]

def PropertyModel.toJson (p : PropertyModel) : Json := .object [
  ("property_name", .text p.name),
  ("property_iri", .text p.iri),
  ("target_type", p.type.toJson),
  ("is_required", .bool p.isRequired),
  ("is_list", .bool p.isList),
  ("constraints", p.constraints.toJson),
  ("description", .text p.description),
  ("inherited", .bool p.inherited)]

def ClassModel.toJson (c : ClassModel) : Json := .object [
  ("class_name", .text c.className),
  ("class_iri", .text c.iri),
  ("builder_name", .text c.builderName),
  ("module_name", .text c.moduleName),
  ("properties", .list (c.properties.map PropertyModel.toJson)),
  ("shape_iri", .ofText? c.shapeIri),
  ("super_classes", .texts c.supers),
  ("description", .text c.description)]

end ShapeForge
