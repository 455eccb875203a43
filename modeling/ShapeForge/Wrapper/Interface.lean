import ShapeForge.Assoc

/-!
# Interfaces and their order

An interface names its bases and the predicates of its accessors. Its linearization is the order
in which definitions are looked up: the interface itself, then its bases merged so that every
linearization among them and the order of the bases are kept. There may be none.
-/

namespace ShapeForge

structure Interface where
  name : String
  bases : List String := []
  predicates : List (String × String) := []
deriving Repr, DecidableEq

/-- The interface that all others have as a base. -/
def rootInterface : String := "OntologyInterface"

/-- An accessor that an interface does not have. -/
structure NoAccessor where
  interface : String
  accessor : String
deriving Repr, DecidableEq

def NoAccessor.message (e : NoAccessor) : String :=
  s!"{e.interface} has no accessor '{e.accessor}'"

namespace Interface

/-- The first head of a list that stands in no tail. -/
def nextHead? (lists : List (List String)) : Option String :=
  (lists.filterMap List.head?).find? fun name => lists.all fun l => !l.tail.contains name

/-- Merges lists, keeping the order of each; `fuel` bounds the number of names. -/
def merge : Nat → List (List String) → Option (List String)
  | 0, _ => none
  | fuel + 1, lists =>
    let lists := lists.filter (!·.isEmpty)
    if lists.isEmpty then
      some []
    else do
      let name ← nextHead? lists
      let rest ← merge fuel (lists.map fun l => if l.head? = some name then l.tail else l)
      return name :: rest

/-- The linearization of an interface among the given ones. The bases of an interface are defined
before it, so `fuel` of their number is enough. -/
def linearize (types : List Interface) : Nat → String → Option (List String)
  | 0, _ => none
  | fuel + 1, name =>
    match types.find? fun t => t.name == name with
    | none => some [name]
    | some t => do
      let bases := if t.bases.isEmpty then [rootInterface] else t.bases
      let orders ← bases.mapM (linearize types fuel)
      let lists := orders ++ [bases]
      let rest ← merge (lists.flatten.length + 1) lists
      return name :: rest

def lookupOrder (types : List Interface) (name : String) : Option (List String) :=
  linearize types (types.length + 2) name

def predicateFor (types : List Interface) (name accessor : String) :
    Except NoAccessor String :=
  let order := (lookupOrder types name).getD []
  let found := order.findSome? fun n =>
    (types.find? fun t => t.name == n).bind fun t => Assoc.get? accessor t.predicates
  match found with
  | some iri => .ok iri
  | none => .error ⟨name, accessor⟩

end Interface

end ShapeForge
