import ShapeForge.Number.Shortest

/-!
# Bounds

A numeric bound is an integer or a double. Values are compared with it exactly, and a comparison
with not-a-number never holds.
-/

namespace ShapeForge

/-- A numeric bound, and also a value that is compared with one. -/
inductive Bound where
  | int (value : Int)
  | double (value : Double)
deriving Repr, DecidableEq

namespace Bound

/-- How two numbers compare; not at all if one is not a number. -/
def compare? : Bound → Bound → Option Ordering
  | .int i, .int j => some (compare i j)
  | .int i, .double d => d.compareInt? i
  | .double d, .int j => (d.compareInt? j).map Ordering.swap
  | .double d, .double e => d.compare? e

def lt (a b : Bound) : Bool := a.compare? b == some .lt

def le (a b : Bound) : Bool := a.compare? b == some .lt || a.compare? b == some .eq

/-- The number in the emitted source. -/
def source : Bound → String
  | .int i => toString i
  | .double d => d.text

/-- The number in a message: a double without a fraction is written as an integer. -/
def label : Bound → String
  | .int i => toString i
  | .double d =>
    match d.isIntegral, d.truncate? with
    | true, some i => toString i
    | _, _ => d.text

end Bound

end ShapeForge
