import ShapeForge.Assoc
import ShapeForge.Number.Double

/-!
# JSON values

A JSON value whose objects keep the order of their fields. Integers and numbers with a fraction or
an exponent are told apart.
-/

namespace ShapeForge

inductive Json where
  | null
  | bool (value : Bool)
  | int (value : Int)
  | double (value : Double)
  | text (value : String)
  | list (items : List Json)
  | object (fields : List (String × Json))
deriving Repr, Inhabited

namespace Json

/-- The field of an object; nothing for a value that is no object. -/
def get? (key : String) : Json → Option Json
  | .object fields => Assoc.get? key fields
  | _ => none

/-- The fields of an object; none for another value. -/
def fields : Json → List (String × Json)
  | .object fields => fields
  | _ => []

/-- The items of a list; none for another value. -/
def items : Json → List Json
  | .list items => items
  | _ => []

def isList : Json → Bool
  | .list _ => true
  | _ => false

/-- The text that a value is. -/
def text? : Json → Option String
  | .text s => some s
  | _ => none

/-- A text or null. -/
def ofText? : Option String → Json
  | some s => .text s
  | none => .null

def texts (items : List String) : Json := .list (items.map .text)

end Json

end ShapeForge
