import ShapeForge.Package.Basic

/-!
# Loading a package

A package may be emitted and still not load. Its classes need names that can be defined, texts that
a source can hold, lookup orders, and bodies in which no accessor hides a decorator that a later
accessor uses. Its rules need bounds that the source can write.
-/

namespace ShapeForge

/-- Why a package does not load. -/
inductive LoadError where
  /-- The name of a class is a reserved word or no identifier. -/
  | badClassName (name : String)
  /-- The documentation of an interface holds the null character, which no source can hold. -/
  | unreadableSource (className : String)
  /-- The bases of an interface cannot be put into an order. -/
  | noLookupOrder (className : String)
  /-- An accessor hides a decorator that a later one uses. -/
  | hiddenDecorator (className : String)
  /-- A bound is infinite or not a number. -/
  | unwritableBound (className : String)
deriving Repr, DecidableEq

def Bound.isFinite : Bound → Bool
  | .double (.infinite _) | .double .nan => false
  | _ => true

def Constraints.bounds (c : Constraints) : List Bound :=
  [c.minInclusive, c.maxInclusive, c.minExclusive, c.maxExclusive].filterMap id

namespace ClassModel

/-- Whether a property takes the name of a decorator and another one follows. -/
def hides (decorators : List String) (properties : List PropertyModel) : Bool :=
  properties.dropLast.any fun p => decorators.contains p.name

/-- The texts that the documentation of an interface shows as they are. -/
def documented (c : ClassModel) : List String :=
  c.iri :: c.description :: c.declared.flatMap fun p => [p.description, p.iri]

/-- Whether the source of an interface can be read. -/
def isReadable (o : Options) (c : ClassModel) : Bool :=
  !o.includeDocs || c.documented.all fun text => !text.toList.contains '\x00'

def loadInterface (p : Package) (c : ClassModel) : Except LoadError Unit :=
  -- The source is read as a whole before its class statement finds the bases; the decorators
  -- are only looked up while the body runs.
  if !c.isReadable p.options then
    .error (.unreadableSource c.className)
  else if (Interface.lookupOrder p.interfaces c.className).isNone then
    .error (.noLookupOrder c.className)
  else if hides ["property", "abstractmethod"] c.declared then
    .error (.hiddenDecorator c.className)
  else .ok ()

def loadWrapper (c : ClassModel) : Except LoadError Unit :=
  if hides ["cached_property"] c.properties then .error (.hiddenDecorator c.className) else .ok ()

def loadRules (c : ClassModel) : Except LoadError Unit :=
  if c.properties.all fun p => p.constraints.bounds.all Bound.isFinite then .ok ()
  else .error (.unwritableBound c.className)

def checkName (c : ClassModel) : Except LoadError Unit :=
  if Options.isModuleName c.className then .ok () else .error (.badClassName c.className)

end ClassModel

namespace Package

/-- Loads a package. Wrappers that validate load the rules first; otherwise the builders load
them, after the wrappers. -/
def load (p : Package) : Except LoadError Unit := do
  p.classes.forM ClassModel.checkName
  p.classes.forM (ClassModel.loadInterface p)
  if p.options.validationEnabled then
    p.classes.forM ClassModel.loadRules
    p.classes.forM ClassModel.loadWrapper
  else
    p.classes.forM ClassModel.loadWrapper
    p.classes.forM ClassModel.loadRules

end Package

end ShapeForge
