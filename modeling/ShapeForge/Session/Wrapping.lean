import ShapeForge.Session.Basic

/-!
# Wrapped nodes in a session

Actions on wrapped nodes: wrapping them as a class, reading their accessors, checking them, and
looking at what no accessor reads. An accessor reads the graph at its first use only.
-/

namespace ShapeForge

open Rdf (Graph Term)

namespace RegistryChoice

/-- The registry that a choice means. -/
def current (s : Session) : RegistryChoice → Registry
  | .common => s.registry
  | .fixed registry => registry

end RegistryChoice

namespace Session

/-- The class whose wrapper is registered for an export. -/
def wrapperModel (s : Session) (choice : RegistryChoice) (e : Export) :
    Except ActionError ClassModel :=
  let registered := match e with
    | .interface c => (choice.current s).factory? c.className
    | _ => none
  match registered.bind s.package.wrappedModel? with
  | some model => .ok model
  | none => .error (.noFactory ⟨e.qualified s.package⟩)

/-- Wraps a node. The wrapper class must define all accessors that its interface asks for. -/
def construct (s : Session) (model : ClassModel) (node : Term) : Except ActionError Wrapped :=
  if (s.package.missing model).isEmpty then .ok ⟨model.wrapperClass, node⟩ else .error .badCall

/-- Wraps a node as an export. -/
def wrapAs (s : Session) (choice : RegistryChoice) (e : Export) (node : Term) :
    Except ActionError Wrapped := do
  let model ← s.wrapperModel choice e
  s.construct model node

/-- Wraps a node as the class that a property refers to. -/
def wrapClass (s : Session) (choice : RegistryChoice) (className : String) (node : Term) :
    Except ActionError Reading :=
  match s.package.classes.find? fun c => c.className == className with
  | none => .error .noAttribute
  | some c => (s.wrapAs choice (.interface c) node).map (.object · [])

/-- Reads the values of a property: all of them, or only the first. -/
def readProperty (s : Session) (choice : RegistryChoice) (node : Term) (p : PropertyModel) :
    Except ActionError Reading := do
  let g := s.scope.graph
  let resources := g.resources node p.iri
  let items ← match p.type with
    | .literal type _ => .ok ((g.literals node p.iri (.scalar type)).map Reading.scalar)
    | .resource => .ok (resources.map Reading.node)
    | .object className _ =>
      -- Wrapping can fail, so a single-valued accessor must not wrap what it does not return.
      (if p.isList then resources else resources.take 1).mapM (s.wrapClass choice className)
  return if p.isList then .list items else items.head?.getD .absent

/-- Reads a member of a wrapped node. -/
def readMember (s : Session) (choice : RegistryChoice) (w : Wrapped) (name : String) :
    Except (PathError ActionError) Reading :=
  match s.package.wrappedModel? w.factory with
  | none => .error .noMember
  | some c =>
    match c.property? name with
    | some p => (s.readProperty choice w.node p).mapError .unread
    | none => if name = "CLASS_IRI" then .ok (.scalar (.text c.iri none)) else .error .noMember

end Session

/-- The failure of a path as that of an action. -/
def PathError.toAction : PathError ActionError → ActionError
  | .noMember => .noAttribute
  | .notIndexable => .badCall
  | .outOfRange => .outOfRange
  | .unread e => e

namespace Wrapper

/-- The violations of a wrapped node, as the listing routine of its class answers them; nothing is
listed without validation. -/
def listing [Platform] (p : Package) (g : Graph) (w : Wrapper) :
    Except RoutineError (Option (List Violation)) :=
  if p.options.validationEnabled then p.call g w.handle.node w.model.violationsFunction
  else .ok (some [])

/-- Requires that there are no violations. -/
def requireValid [Platform] (p : Package) (g : Graph) (w : Wrapper) : Except RoutineError Unit := do
  let violations := (← w.listing p g).getD []
  match invalid? w.handle.node violations with
  | some e => throw (.invalid e)
  | none => return ()

end Wrapper

namespace Action

/-- The node of an argument: a term, or the IRI that a text is. -/
def nodeOf : Value → Action Term
  | .term t => pure t
  | .text s => pure (.iri s)
  | _ => throw .badCall

/-- Wraps a node as an exported class. -/
def makeWrapper (className : String) (node : Argument) : Action Wrapper := do
  let e ← exported className
  let v ← evaluate node
  let s ← get
  -- The class is looked up before the node is looked at: its failure comes first.
  let model ← ofExcept id (s.wrapperModel s.choice e)
  let node ← nodeOf v
  discard (ofExcept id (s.construct model node))
  return { model, handle := { node, known := model.knownPredicates }, registry := s.choice }

def wrap (name className : String) (node : Argument) : Action Wrapper := do
  let w ← makeWrapper className node
  assign name (.wrapper w)
  return w

/-- Wraps a node for a variable if it has no violations. -/
def wrapValidated [Platform] (name className : String) (node : Argument) : Action Wrapper := do
  let w ← makeWrapper className node
  ofExcept .routine (w.requireValid (← get).package (← graph))
  assign name (.wrapper w)
  return w

/-- Follows a path from the wrapped node that a variable holds. -/
def read (name : String) (path : List PathStep) : Action Reading := do
  let w ← lookupWrapper name
  let s ← get
  let (result, after) :=
    (Reading.object w.wrapped w.memo).follow (s.readMember w.registry) path
  match after with
  | .object _ memo => assign name (.wrapper { w with memo })
  | _ => pure ()
  ofExcept PathError.toAction result

/-- The violations of the wrapped node that a variable holds. -/
def check [Platform] (name : String) : Action (List Violation) := do
  let w ← lookupWrapper name
  match ← ofExcept .routine (w.listing (← get).package (← graph)) with
  | some violations => return violations
  | none => throw .badCall

/-- Requires that the wrapped node that a variable holds has no violations. -/
def checkOrFail [Platform] (name : String) : Action Unit := do
  let w ← lookupWrapper name
  ofExcept .routine (w.requireValid (← get).package (← graph))

/-- What no accessor of the wrapped node that a variable holds reads. -/
def extras (name : String) : Action Extras := do
  let w ← lookupWrapper name
  let (extras, handle) := w.handle.useExtras (← graph)
  assign name (.wrapper { w with handle })
  return extras

/-- The nodes of an extra predicate, wrapped as an exported class. -/
def extraObjects (name predicate className : String) : Action (List Wrapped) := do
  let w ← lookupWrapper name
  let e ← exported className
  let extras ← extras name
  let s ← get
  (extras.resources predicate).mapM fun node =>
    ofExcept id (s.wrapAs w.registry e node)

/-- Whether what a variable holds is an instance of an exported class. -/
def isInstance (name className : String) : Action Bool := do
  let v ← lookup name
  let e ← exported className
  let p := (← get).package
  match e, v with
  | .entry, _ | .register, _ => throw .badCall
  | .interface c, .wrapper w => return (p.lookupOrder w.model).contains c.className
  | .wrapper c, .wrapper w => return c.wrapperClass == w.model.wrapperClass
  | .builder c, .builder d _ => return c.builderClass == d.builderClass
  | _, _ => return false

/-- Whether two variables hold the same: one builder, or wrapped nodes that are the same. -/
def same (a b : String) : Action Bool := do
  let x ← lookup a
  let y ← lookup b
  match x, y with
  | .wrapper v, .wrapper w => return v.wrapped.same w.wrapped
  | .builder .., .builder .. => return a == b
  | _, _ => return false

def unregister (className : String) : Action Unit := do
  match ← exported className with
  | .interface c => modify fun s => { s with registry := s.registry.unregister c.className }
  | _ => pure ()

/-- Registers all classes of the package again. An entry function that hides the registry leaves
nothing to register in. -/
def register : Action Unit := do
  let p := (← get).package
  if p.options.dslName = "default_registry" && !p.classes.isEmpty then
    throw .noAttribute
  modify fun s =>
    { s with
      registry := p.classes.foldl (fun r c => r.register c.className c.wrapperClass) s.registry }

/-- Uses a registry with some classes only from now on. -/
def useRegistry (classNames : List String) : Action Unit := do
  let classes ← classNames.mapM fun name => do
    match ← exported name with
    | .interface c => pure c
    | _ => throw .noAttribute
  modify fun s => { s with choice := .fixed (Package.registryOf classes) }

def predicateFor (className accessor : String) : Action String := do
  let e ← exported className
  let found ← require .noAttribute ((← get).package.predicateFor? accessor e)
  ofExcept .noAccessor found

def interfaceView (className : String) : Action InterfaceView := do
  let e ← exported className
  require .noAttribute ((← get).package.view? e)

def knownPredicates (className : String) : Action (List String) := do
  let e ← exported className
  require .noAttribute (Package.known? e)

end Action

end ShapeForge
