import ShapeForge.Model.Basic
import ShapeForge.Naming.Allocator
import ShapeForge.Naming.Identifier

/-!
# Names of classes

Every emitted class is named before any of its properties is looked at. A class name is taken only
if the names derived from it are free too: those of its wrapper and builder, and of both modules.
-/

namespace ShapeForge.Model

open Naming (Allocator Condition)

/-- The modules that every package has. -/
def reservedModules : List String := ["dsl", "validation"]

/-- The members of the scope of a package. -/
def reservedBuilders : List String := ["graph", "instances", "add", "result"]

/-- The names that emitted modules import. -/
def reservedClasses : List String :=
  ["Callable", "ClassVar", "Graph", "InstanceBuilder", "InstanceScope", "Node",
    "OntologyInterface", "Optional", "PropertyRule", "RdfBacked", "RdfHandle", "URIRef",
    "ValidationError", "Violation", "WrapperRegistry"]

def wrapperName (className : String) : String := className ++ "Wrapper"

def builderClassName (className : String) : String := className ++ "Builder"

/-- The module of the wrapper of a class whose own module is given. -/
def wrapperModule (moduleName : String) : String := moduleName ++ "_wrapper"

theorem wrapperName_injective : Function.Injective wrapperName := fun _ _ h => by
  simpa [wrapperName] using h

theorem builderClassName_injective : Function.Injective builderClassName := fun _ _ h => by
  simpa [builderClassName] using h

theorem wrapperModule_injective : Function.Injective wrapperModule := fun _ _ h => by
  simpa [wrapperModule] using h

/-- What is known while classes are named. -/
structure NamingState where
  classes : Allocator := { scope := "generated classes", taken := reservedClasses }
  modules : Allocator := { scope := "generated modules", taken := reservedModules }
  builders : Allocator := { scope := "instance DSL", taken := reservedBuilders }
  names : List (String × ClassNames) := []
  notices : List Notice := []

namespace NamingState

/-- Whether all names derived from a class name are free. -/
def isUsable (s : NamingState) (name : String) : Bool :=
  let moduleName := Naming.moduleNameFor name
  s.classes.free [wrapperName name, builderClassName name]
    && s.modules.free [moduleName, wrapperModule moduleName]

/-- The ways to derive a name from a suffixed class name, each with the names that are taken. -/
def derivations (s : NamingState) (name : String) : List ((Nat → String) × List String) :=
  [(fun k => wrapperName (Naming.suffixed name k), s.classes.taken),
   (fun k => builderClassName (Naming.suffixed name k), s.classes.taken),
   (fun k => Naming.moduleNameFor (Naming.suffixed name k), s.modules.taken),
   (fun k => wrapperModule (Naming.moduleNameFor (Naming.suffixed name k)), s.modules.taken)]

theorem derivations_injective (s : NamingState) (name : String) :
    ∀ way ∈ s.derivations name, Function.Injective way.1 := by
  simp only [derivations, List.mem_cons, List.not_mem_nil, or_false, forall_eq_or_imp, forall_eq]
  exact ⟨fun _ _ h => Naming.suffixed_injective name (wrapperName_injective h),
    fun _ _ h => Naming.suffixed_injective name (builderClassName_injective h),
    Naming.moduleNameFor_suffixed_injective name,
    fun _ _ h => Naming.moduleNameFor_suffixed_injective name (wrapperModule_injective h)⟩

/-- A suffix that cannot be used is blocked by a taken name. -/
theorem blocked_of_not_isUsable {s : NamingState} {name : String} {k : Nat}
    (h : s.isUsable (Naming.suffixed name k) = false) :
    ∃ way ∈ s.derivations name, way.1 k ∈ way.2 := by
  simp only [isUsable, Allocator.free, List.all_cons, List.all_nil, Bool.and_true,
    Bool.and_eq_false_iff, Bool.not_eq_false', List.contains_eq_mem, decide_eq_true_eq] at h
  simpa [derivations, or_assoc] using h

theorem usable_bounded (s : NamingState) (name : String) (ks : List Nat) (hnodup : ks.Nodup)
    (h : ∀ k ∈ ks, s.isUsable (Naming.suffixed name k) = false) :
    ks.length ≤ 2 * (s.classes.taken.length + s.modules.taken.length) := by
  have hle := Naming.length_le_of_blocked (s.derivations_injective name) hnodup fun k hk =>
    blocked_of_not_isUsable (h k hk)
  simp only [derivations, List.foldr_cons, List.foldr_nil] at hle
  omega

/-- The condition on a class name that all names derived from it are free. A taken name blocks at
most one suffix by each of the two ways to derive a name of its kind. -/
def usable (s : NamingState) : Condition where
  holds := s.isUsable
  exceptions := 2 * (s.classes.taken.length + s.modules.taken.length)
  bounded := s.usable_bounded

/-- Names one class. A class that is declared again gets new names. -/
def add (s : NamingState) (c : DeclaredClass) : NamingState :=
  let (className, classes, notices₁) := s.classes.claim c.name c.iri s.usable
  let classes := (classes.reserve (wrapperName className)).reserve (builderClassName className)
  let (moduleName, modules, notices₂) :=
    s.modules.claim (Naming.moduleNameFor className) c.iri .none
  let modules := modules.reserve (wrapperModule moduleName)
  let (builderName, builders, notices₃) :=
    s.builders.claim (Naming.propertyNameFor className) c.iri .none
  { classes, modules, builders
    names := Assoc.put c.iri ⟨className, moduleName, builderName⟩ s.names
    notices := s.notices ++ notices₁ ++ notices₂ ++ notices₃ }

end NamingState

def nameClasses (classes : List DeclaredClass) : NamingState := classes.foldl .add {}

end ShapeForge.Model
