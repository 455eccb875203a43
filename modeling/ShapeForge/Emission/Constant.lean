import ShapeForge.Number.Bound
import ShapeForge.Number.Numeral
import ShapeForge.Text.Quoted

/-!
# Constants

The constants of the emitted source and how they are written.
-/

namespace ShapeForge.Emission

inductive Constant where
  | none
  | bool (value : Bool)
  | number (value : Bound)
  | text (value : String)
  | tuple (items : List Constant)
deriving Inhabited

namespace Constant

/-- A tuple of texts. -/
def texts (items : List String) : Constant := .tuple (items.map .text)

mutual

/-- A constant as it is written. A tuple of one item keeps a comma. -/
def source : Constant → String
  | .none => "None"
  | .bool b => if b then "True" else "False"
  | .number n => n.source
  | .text s => Text.quoted s
  | .tuple [item] => "(" ++ item.source ++ ",)"
  | .tuple items => "(" ++ ", ".intercalate (sources items) ++ ")"

def sources : List Constant → List String
  | [] => []
  | c :: rest => c.source :: sources rest

/-- The integers in a constant. -/
def integers : Constant → List Int
  | .number (.int i) => [i]
  | .tuple items => integersOf items
  | _ => []

def integersOf : List Constant → List Int
  | [] => []
  | c :: rest => c.integers ++ integersOf rest

end

/-- A constant as it is written, unless an integer in it has too many digits. -/
def source? (c : Constant) : Option String :=
  if c.integers.all Numeral.isWritable then some c.source else Option.none

end Constant

end ShapeForge.Emission
