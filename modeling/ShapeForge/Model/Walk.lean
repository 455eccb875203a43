import ShapeForge.Model.Resolution
import ShapeForge.Platform

/-!
# Walks to classes

Resolution as a walk that marks a class while it resolves what is above it, and passes by super
classes that are marked. The calls of a walk are nested as deep as the chain of classes that are
just being resolved is long, and a platform lets them go only so deep.
-/

namespace ShapeForge

namespace Model

/-- What a walk knows: the classes that are resolved, and the marks of those that are just being
resolved. -/
structure Marking where
  resolved : Resolved := {}
  marks : List String := []

/-- Walks to those classes of a list that have names and are not marked. -/
def walkSupers (names : List (String × ClassNames))
    (walk : String → Marking → Option (ClassModel × Marking)) :
    List String → Marking → Option (List ClassModel × Marking)
  | [], s => some ([], s)
  | iri :: rest, s =>
    if iri ∈ names.map (·.1) ∧ iri ∉ s.marks then do
      let (model, s) ← walk iri s
      let (models, s) ← walkSupers names walk rest s
      return (model :: models, s)
    else walkSupers names walk rest s

/-- Walks to a class by calls that are at most `depth` deep; a walk that goes deeper has no answer.
The class is marked until it is resolved. -/
def walk (o : Ontology) (names : List (String × ClassNames)) :
    Nat → String → Marking → Option (ClassModel × Marking)
  | 0, _, _ => none
  | depth + 1, iri, s =>
    match Assoc.get? iri s.resolved.models with
    | some model => some (model, s)
    | none => do
      let (supers, s) ←
        walkSupers names (walk o names depth) (o.supersOf iri) { s with marks := iri :: s.marks }
      let (model, notices) := classModel o names iri supers
      return (model,
        { resolved :=
            { models := s.resolved.models ++ [(iri, model)]
              notices := s.resolved.notices ++ notices }
          marks := s.marks.erase iri })

/-- Walks to classes in order. -/
def walkAll (o : Ontology) (names : List (String × ClassNames)) (depth : Nat) :
    List String → Marking → Option (List ClassModel × Marking)
  | [], s => some ([], s)
  | iri :: rest, s => do
    let (model, s) ← walk o names depth iri s
    let (models, s) ← walkAll o names depth rest s
    return (model :: models, s)

end Model

namespace Ontology

/-- The names of the emitted classes. -/
def classNames (o : Ontology) : List (String × ClassNames) := (Model.nameClasses o.matched).names

/-- Walks to all emitted classes in order, by calls that are at most `depth` deep. -/
def walk (o : Ontology) (depth : Nat) : Option (List ClassModel × Model.Marking) :=
  Model.walkAll o o.classNames depth (o.matched.map DeclaredClass.iri) {}

/-- Whether the platform lets the walk go as deep as it has to. -/
def isWalkable [Platform] (o : Ontology) : Bool := (o.walk (Platform.callDepth o)).isSome

end Ontology

end ShapeForge
