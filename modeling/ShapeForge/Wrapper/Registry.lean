import ShapeForge.Assoc
import ShapeForge.Rdf.Term

/-!
# Registries

A registry says which factory wraps a node as an interface. There is one entry for each interface;
the last registration wins and keeps the place of the first.
-/

namespace ShapeForge

open Rdf (Term)

/-- The factories of interfaces. -/
structure Registry where
  entries : List (String × String) := []
deriving Repr, DecidableEq

/-- An interface that no factory is registered for, by its qualified name. -/
structure NoFactory where
  interface : String
deriving Repr, DecidableEq

def NoFactory.message (e : NoFactory) : String :=
  s!"No wrapper factory registered for {e.interface}"

namespace Registry

def register (r : Registry) (interface factory : String) : Registry :=
  ⟨Assoc.put interface factory r.entries⟩

def unregister (r : Registry) (interface : String) : Registry :=
  ⟨Assoc.erase interface r.entries⟩

def factory? (r : Registry) (interface : String) : Option String :=
  Assoc.get? interface r.entries

/-- The interfaces with a factory, in the order of their first registration. -/
def types (r : Registry) : List String := r.entries.map (·.1)

end Registry

/-- A wrapped node, by the factory that wrapped it. -/
structure Wrapped where
  factory : String
  node : Term
deriving Repr, DecidableEq

namespace Wrapped

def display (w : Wrapped) : String := s!"<{w.factory} {w.node.text}>"

/-- Whether two wrapped nodes are equal: the same factory wrapped the same node. -/
def same (a b : Wrapped) : Bool := a.factory == b.factory && a.node.same b.node

/-- What a wrapped node can be compared with. -/
inductive Operand where
  | wrapped (other : Wrapped)
  | text (value : String)
deriving Repr, DecidableEq

/-- Whether a wrapped node equals something; it never equals a text, not even that of its node. -/
def equals (w : Wrapped) : Operand → Bool
  | .wrapped other => w.same other
  | .text _ => false

end Wrapped

/-- Wraps a node as an interface; `qualified` is the name of the interface in messages. -/
def Registry.wrap (r : Registry) (qualified interface : String) (node : Term) :
    Except NoFactory Wrapped :=
  match r.factory? interface with
  | some factory => .ok ⟨factory, node⟩
  | none => .error ⟨qualified⟩

def Registry.wrapAll (r : Registry) (qualified interface : String) (nodes : List Term) :
    Except NoFactory (List Wrapped) :=
  nodes.mapM (r.wrap qualified interface)

end ShapeForge
