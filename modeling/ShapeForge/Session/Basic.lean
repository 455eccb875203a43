import ShapeForge.Instance.Builder
import ShapeForge.Package.Loading
import ShapeForge.Package.Routine
import ShapeForge.Session.Reading

/-!
# Sessions

A session uses a loaded package: it has a scope that builders build into, the registry that
wrappers are looked up in, and variables for builders and wrapped nodes. An action may fail and
keeps what it did before it failed.
-/

namespace ShapeForge

open Rdf (Graph Term)

/-- Where wrappers are looked up: in the registry of the session, as it is at that time, or in a
fixed one. -/
inductive RegistryChoice where
  | common
  | fixed (registry : Registry)
deriving Repr, DecidableEq

/-- A wrapped node that a variable holds. -/
structure Wrapper where
  model : ClassModel
  handle : Handle
  registry : RegistryChoice
  /-- What its accessors have read. -/
  memo : List (String × Reading) := []

namespace Wrapper

def wrapped (w : Wrapper) : Wrapped := ⟨w.model.wrapperClass, w.handle.node⟩

end Wrapper

/-- What a variable holds. -/
inductive Variable where
  | builder (model : ClassModel) (builder : Builder)
  | wrapper (wrapper : Wrapper)

inductive ActionError where
  | unknownVariable (name : String)
  /-- Nothing has the name that is asked for. -/
  | noAttribute
  /-- Something is used as what it is not, or called with arguments that it does not take. -/
  | badCall
  | outOfRange
  | build (error : BuildError)
  | routine (error : RoutineError)
  | noFactory (error : NoFactory)
  | noAccessor (error : NoAccessor)
deriving Repr, DecidableEq

/-- A use of a package. -/
structure Session where
  package : Package
  scope : Scope := {}
  /-- The registry in which the package registers itself. -/
  registry : Registry
  /-- The registry for the next wrapped nodes. -/
  choice : RegistryChoice := .common
  /-- The number of blank nodes made so far. -/
  blanks : Nat := 0
  bindings : List (String × Variable) := []

def Session.start (package : Package) : Session :=
  { package, registry := Package.registryOf package.classes }

/-- An action of a session. -/
abbrev Action := ExceptT ActionError (StateM Session)

/-- An argument of a call: a value, or what a variable holds. -/
inductive Argument where
  | value (value : Value)
  | reference (name : String)
deriving Repr, DecidableEq

namespace Action

/-- Fails with a cause, or answers. -/
def ofExcept {ε α : Type} (cause : ε → ActionError) (result : Except ε α) : Action α :=
  match result with
  | .ok a => pure a
  | .error e => throw (cause e)

/-- Fails unless there is something. -/
def require {α : Type} (error : ActionError) : Option α → Action α
  | some a => pure a
  | none => throw error

def lookup (name : String) : Action Variable := do
  require (.unknownVariable name) (Assoc.get? name (← get).bindings)

def assign (name : String) (value : Variable) : Action Unit :=
  modify fun s => { s with bindings := Assoc.put name value s.bindings }

def lookupBuilder (name : String) : Action (ClassModel × Builder) := do
  match ← lookup name with
  | .builder c b => return (c, b)
  | .wrapper _ => throw .noAttribute

def lookupWrapper (name : String) : Action Wrapper := do
  match ← lookup name with
  | .wrapper w => return w
  | .builder .. => throw .noAttribute

/-- The value of an argument. -/
def evaluate : Argument → Action Value
  | .value v => pure v
  | .reference name => do
    match ← lookup name with
    | .builder _ b => return .entity b.display b.node
    | .wrapper w => return .entity w.wrapped.display w.wrapped.node

/-- What the package exports under a name. -/
def exported (name : String) : Action Export := do
  require .noAttribute ((← get).package.export? name)

def graph : Action Graph := return (← get).scope.graph

def changeGraph (f : Graph → Graph) : Action Unit :=
  modify fun s => { s with scope := { s.scope with graph := f s.scope.graph } }

end Action

end ShapeForge
