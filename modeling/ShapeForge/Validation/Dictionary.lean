import ShapeForge.Json.Basic
import ShapeForge.Validation.Rule

/-!
# Violations as JSON

The fields of a violation.
-/

namespace ShapeForge

def Violation.toJson (v : Violation) : Json := .object [
  ("focus_node", .text v.focusNode),
  ("property", .text v.property),
  ("path", .text v.path),
  ("constraint", .text v.constraint),
  ("message", .text v.message),
  ("value", .ofText? v.value)]

end ShapeForge
