import ShapeForge.Model.Names

/-!
# Resolution

Each emitted class is resolved once, after its super classes. A super class that is just being
resolved is left out, so a circle of classes is cut where it closes. Own properties come before
inherited ones; a property that is declared again keeps its inherited name.
-/

namespace ShapeForge

open Naming (Allocator)

namespace Model

/-- Adds the properties of a super class, except for predicates that are there already. -/
def inheritFrom (inherited : List PropertyModel) (super : ClassModel) : List PropertyModel :=
  super.properties.foldl
    (fun found p =>
      if found.any (·.iri == p.iri) then found else found ++ [{ p with inherited := true }])
    inherited

/-- What is known while the own properties of a class are resolved. -/
structure Members where
  own : List PropertyModel := []
  inherited : List PropertyModel
  names : Allocator
  notices : List Notice := []

/-- The name of a property before names are made unique: a context term wins over the name that
the shape gives. -/
def memberName (context : Context) (p : PropertyShape) : String :=
  match context.termFor? p.path with
  | some (term, _) => Naming.propertyNameFor term
  | none => Naming.propertyNameFor p.name

/-- Takes one declared property. A predicate counts once; one that is inherited gives its name
away. -/
def Members.add (o : Ontology) (names : List (String × ClassNames)) (m : Members)
    (p : PropertyShape) : Members :=
  if m.own.any (·.iri == p.path) then
    -- A second declaration of a path is ignored, with its constraints.
    m
  else
    let model (name : String) : PropertyModel :=
      { name, iri := p.path, type := p.targetType o.context names
        isRequired := p.isRequired, isList := p.isList, constraints := p.constraints
        description := p.description }
    match m.inherited.find? (·.iri == p.path) with
    | some overridden =>
      -- The inherited name was taken from the start, so no claim on it is needed here.
      { m with
        own := m.own ++ [model overridden.name]
        inherited := m.inherited.erase overridden }
    | none =>
      let (name, allocator, notices) := m.names.claim (memberName o.context p) p.path .none
      { m with
        own := m.own ++ [model name]
        names := allocator
        notices := m.notices ++ notices }

/-- The model of a class whose super classes are resolved. -/
def classModel (o : Ontology) (names : List (String × ClassNames)) (iri : String)
    (supers : List ClassModel) : ClassModel × List Notice :=
  let found := (Assoc.get? iri names).getD ⟨"", "", ""⟩
  let inherited := supers.foldl inheritFrom []
  let shapes := o.shapesFor iri
  let allocator : Allocator :=
    { scope := s!"class {found.className}", taken := inherited.map PropertyModel.name }
  let members := (shapes.flatMap NodeShape.properties).foldl (Members.add o names)
    { inherited, names := allocator }
  ({ className := found.className
     iri
     builderName := found.builderName
     moduleName := found.moduleName
     properties := members.own ++ members.inherited
     shapeIri := shapes.head?.map NodeShape.iri
     supers := supers.map ClassModel.className },
   members.notices)

/-- The classes that are resolved, and what was noticed. -/
structure Resolved where
  models : List (String × ClassModel) := []
  notices : List Notice := []

mutual

/-- Resolves a class; `available` are the emitted classes that are not being resolved. -/
def resolveClass (o : Ontology) (names : List (String × ClassNames)) (available : List String)
    (iri : String) (r : Resolved) : ClassModel × Resolved :=
  match Assoc.get? iri r.models with
  | some model => (model, r)
  | none =>
    let (supers, r) := resolveSupers o names available (o.supersOf iri) r
    let (model, notices) := classModel o names iri supers
    (model, { models := r.models ++ [(iri, model)], notices := r.notices ++ notices })
termination_by (available.length, 1, 0)

/-- Resolves the super classes that can be inherited from. -/
def resolveSupers (o : Ontology) (names : List (String × ClassNames)) (available : List String)
    (supers : List String) (r : Resolved) : List ClassModel × Resolved :=
  match supers with
  | [] => ([], r)
  | super :: rest =>
    if _h : super ∈ available then
      let (model, r) := resolveClass o names (available.erase super) super r
      let (models, r) := resolveSupers o names available rest r
      (model :: models, r)
    else
      -- The super class is not emitted, or it is waiting for this very class.
      resolveSupers o names available rest r
termination_by (available.length, 0, supers.length)
decreasing_by
  · have smaller := List.length_erase_of_mem _h
    have positive := List.length_pos_of_mem _h
    exact Prod.Lex.left _ _ (by omega)
  · exact Prod.Lex.right _ (Prod.Lex.right _ (by simp))
  · exact Prod.Lex.right _ (Prod.Lex.right _ (by simp))

end

def resolveAll (o : Ontology) (names : List (String × ClassNames)) (available : List String) :
    List String → Resolved → List ClassModel × Resolved
  | [], r => ([], r)
  | iri :: rest, r =>
    let (model, r) := resolveClass o names (available.erase iri) iri r
    let (models, r) := resolveAll o names available rest r
    (model :: models, r)

end Model

namespace Ontology

/-- The class models of an ontology, in the order of its classes, and what was noticed. -/
def resolve (o : Ontology) : List ClassModel × List Notice :=
  let named := Model.nameClasses o.matched
  let available := named.names.map (·.1)
  let (models, r) :=
    Model.resolveAll o named.names available (o.matched.map DeclaredClass.iri) {}
  (models, named.notices ++ r.notices)

end Ontology

end ShapeForge
