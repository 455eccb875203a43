import ShapeForge.Emission.Package
import ShapeForge.Emission.InstanceDsl
import ShapeForge.Validation.Rule
import ShapeForge.Wrapper.Interface
import ShapeForge.Wrapper.Registry

/-!
# Packages

An emitted package as those who use it see it: the names that it exports, the interfaces with
their lookup order, and the rules of its classes. Everything follows from the class models.
-/

namespace ShapeForge

def PropertyModel.rule (p : PropertyModel) : Rule :=
  { name := p.name
    path := p.iri
    valueType := .ofName p.valueType
    constraints := p.constraints }

namespace ClassModel

/-- The property that a name denotes: of several with one name, the last. -/
def property? (c : ClassModel) (name : String) : Option PropertyModel :=
  c.properties.reverse.find? fun p => p.name == name

/-- The rules of a class, one for each name. -/
def rules (c : ClassModel) : List Rule :=
  (c.properties.foldl (fun rules p => Assoc.put p.name p.rule rules) []).map (·.2)

/-- The properties that the interface of a class declares: those of super classes are declared
there. -/
def declared (c : ClassModel) : List PropertyModel :=
  if c.supers.isEmpty then c.properties else c.ownProperties

def interface (c : ClassModel) : Interface :=
  { name := c.className
    bases := c.supers
    predicates := c.declared.foldl (fun pairs p => Assoc.put p.name p.iri pairs) [] }

end ClassModel

/-- An emitted package. -/
structure Package where
  options : Options
  classes : List ClassModel
deriving Repr, DecidableEq

/-- What a package exports under a name. -/
inductive Export where
  | interface (model : ClassModel)
  | wrapper (model : ClassModel)
  | builder (model : ClassModel)
  | scope
  | entry
  | register
deriving Repr, DecidableEq

namespace Package

/-- The exports by name, in the order in which they are defined. -/
def exports (p : Package) : List (String × Export) :=
  p.classes.map (fun c => (c.className, .interface c))
    ++ p.classes.map (fun c => (c.wrapperClass, .wrapper c))
    ++ p.classes.map (fun c => (c.builderClass, .builder c))
    ++ [(p.options.scopeClass, .scope), (p.options.dslName, .entry), ("register", .register)]

/-- What a name denotes: a later definition hides an earlier one. -/
def export? (p : Package) (name : String) : Option Export :=
  Assoc.get? name p.exports.reverse

def interfaces (p : Package) : List Interface := p.classes.map ClassModel.interface

/-- The lookup order of the interface of a class. -/
def lookupOrder (p : Package) (c : ClassModel) : List String :=
  (Interface.lookupOrder p.interfaces c.className).getD []

/-- The accessors that the interface of a class asks for, its own and those of its bases. -/
def required (p : Package) (c : ClassModel) : List String :=
  (p.lookupOrder c).flatMap fun name =>
    match p.interfaces.find? fun i => i.name == name with
    | some i => i.predicates.map (·.1)
    | none => []

/-- The accessors that the wrapper of a class lacks. -/
def missing (p : Package) (c : ClassModel) : List String :=
  (p.required c).filter fun name => (c.property? name).isNone

/-- The class that a wrapper class belongs to. -/
def wrappedModel? (p : Package) (wrapperClass : String) : Option ClassModel :=
  p.classes.find? fun c => c.wrapperClass == wrapperClass

def registryOf (classes : List ClassModel) : Registry :=
  classes.foldl (fun r c => r.register c.className c.wrapperClass) {}

end Package

namespace Export

/-- The name of an export with its module and package. -/
def qualified (p : Package) (e : Export) : String :=
  let dotted (moduleName name : String) : String :=
    p.options.packageName ++ "." ++ moduleName ++ "." ++ name
  match e with
  | .interface c => dotted c.moduleName c.className
  | .wrapper c => dotted c.wrapperModule c.wrapperClass
  | .builder c => dotted "dsl" c.builderClass
  | .scope => dotted "dsl" p.options.scopeClass
  | .entry => dotted "dsl" p.options.dslName
  | .register => p.options.packageName ++ ".register"

end Export

/-- What can be asked of the interface of a class. -/
structure InterfaceView where
  iri : String
  predicates : List (String × String)
  /-- The accessors without a definition, in the order of their names. -/
  abstract : List String
deriving Repr, DecidableEq

namespace Package

/-- Texts in order, each once. -/
def sorted (names : List String) : List String :=
  (names.foldl (fun seen n => if seen.contains n then seen else seen ++ [n]) []).mergeSort
    fun a b => decide (a ≤ b)

/-- The view of an interface or of a wrapper; other exports have none. -/
def view? (p : Package) : Export → Option InterfaceView
  | .interface c => some ⟨c.iri, c.interface.predicates, sorted (p.required c)⟩
  | .wrapper c => some ⟨c.iri, c.interface.predicates, sorted (p.missing c)⟩
  | _ => none

/-- The predicates that a wrapper reads. -/
def known? : Export → Option (List String)
  | .wrapper c => some (sorted c.knownPredicates)
  | _ => none

/-- The predicate of an accessor of an interface or a wrapper; other exports have none. -/
def predicateFor? (p : Package) (accessor : String) : Export → Option (Except NoAccessor String)
  | .interface c => some (Interface.predicateFor p.interfaces c.className accessor)
  | .wrapper c =>
    some ((Interface.predicateFor p.interfaces c.className accessor).mapError fun _ =>
      ⟨c.wrapperClass, accessor⟩)
  | _ => none

end Package

end ShapeForge
