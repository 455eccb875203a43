import ShapeForge.Emission.InstanceDsl
import ShapeForge.Emission.Interface
import ShapeForge.Emission.Package
import ShapeForge.Emission.Validation

/-!
# Generators

A generator emits the artifacts of one kind from the class models. It fails when it comes to an
integer with too many digits to be written, and the one for the instance DSL when a name is in use.
-/

namespace ShapeForge.Emission

/-- The generators, in the order in which they run by default. -/
inductive Generator where
  | interfaces
  | wrappers
  | validation
  | instanceDsl
  | package
deriving Repr, DecidableEq

namespace Generator

def all : List Generator := [.interfaces, .wrappers, .validation, .instanceDsl, .package]

def name : Generator → String
  | .interfaces => "interfaces"
  | .wrappers => "wrappers"
  | .validation => "validation"
  | .instanceDsl => "instance_dsl"
  | .package => "package"

def ofName (name : String) : Except GenerationError Generator :=
  match all.find? fun g => g.name == name with
  | some g => .ok g
  | none => .error (.unknownGenerator name (all.map Generator.name))

/-- The generators of a list of names; without a list, all of them. -/
def choose : Option (List String) → Except GenerationError (List Generator)
  | none => .ok all
  | some names => names.mapM ofName

/-- The integers that a generator writes. The summaries of counts are documentation. -/
def integers (o : Options) (classes : List ClassModel) : Generator → List Int
  | .interfaces =>
    if o.includeDocs then
      classes.flatMap fun c =>
        (interfaceProperties (moduleTable classes) c).flatMap PropertyModel.shownCounts
    else []
  | .validation => classes.flatMap fun c => c.properties.flatMap ruleIntegers
  | .instanceDsl =>
    if o.includeDocs then classes.flatMap fun c => c.properties.flatMap PropertyModel.shownCounts
    else []
  | .wrappers | .package => []

def artifacts (o : Options) (classes : List ClassModel) : Generator → List Artifact
  | .interfaces => Emission.interfaces o classes
  | .wrappers => Emission.wrappers o classes
  | .validation => Emission.validation o classes
  | .instanceDsl => Emission.instanceDsl o classes
  | .package => Emission.package o classes

/-- The artifacts of a generator, unless it comes to an integer that cannot be written. -/
def write (o : Options) (classes : List ClassModel) (g : Generator) :
    Except GenerationError (List Artifact) :=
  if (g.integers o classes).all Numeral.isWritable then .ok (g.artifacts o classes)
  else .error .longInteger

def run (o : Options) (classes : List ClassModel) (g : Generator) :
    Except GenerationError (List Artifact) := do
  if g = .instanceDsl then
    checkDslNames o classes
  g.write o classes

end Generator

/-- The artifacts of generators, one after the other. -/
def emit (o : Options) (classes : List ClassModel) (generators : List Generator) :
    Except GenerationError (List Artifact) := do
  let files ← generators.mapM (Generator.run o classes)
  return files.flatten

end ShapeForge.Emission
