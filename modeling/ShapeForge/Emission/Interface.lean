import ShapeForge.Emission.Artifact
import ShapeForge.Emission.Names
import ShapeForge.Text.Quoted

/-!
# Interfaces

One abstract class for every class model: typed accessors, the IRI of the class, and the predicate
of each accessor. A class with super classes declares its own properties only.
-/

namespace ShapeForge.Emission

open Text (quoted)

/-- An abstract accessor. -/
def abstractAccessor (docs : Bool) (p : PropertyModel) : Function :=
  { decorators := ["property", "abstractmethod"]
    name := p.name
    parameters := ["self"]
    result := some p.annotationText
    doc :=
      if docs then
        (if p.description.isEmpty then [] else [p.description, ""])
          ++ [s!"Predicate: {p.iri} ({p.countSummary})"]
      else []
    body := if docs then [] else ["..."] }

/-- The class variable that maps accessors to predicates. -/
def predicateMap (properties : List PropertyModel) : Assignment :=
  { name := "PREDICATES"
    type := some "ClassVar[dict[str, str]]"
    value :=
      if properties.isEmpty then .inline "\x7b\x7d"
      else .entries "\x7b" (properties.map fun p => quoted p.name ++ ": " ++ quoted p.iri)
        "\x7d" }

/-- The super classes that are emitted, with their modules. -/
def emittedSupers (modules : List (String × String)) (c : ClassModel) : List (String × String) :=
  c.supers.filterMap fun name => (Assoc.get? name modules).map fun m => (name, m)

/-- The properties that the interface of a class declares. -/
def interfaceProperties (modules : List (String × String)) (c : ClassModel) :
    List PropertyModel :=
  if (emittedSupers modules c).isEmpty then c.properties else c.ownProperties

/-- The module of an interface; `modules` are the modules of the emitted classes. -/
def interfaceModule (o : Options) (modules : List (String × String)) (c : ClassModel) :
    SourceModule :=
  let supers := emittedSupers modules c
  let superNames := supers.map (·.1)
  let properties := interfaceProperties modules c
  let bases := if supers.isEmpty then ["OntologyInterface"] else superNames
  { doc :=
      if o.includeDocs then [s!"{c.className} interface.", "", s!"Class IRI: {c.iri}"] else []
    imports :=
      [[⟨.library "abc", ["abstractmethod"], false⟩,
        ⟨.library "typing", ["ClassVar", "Optional", "TYPE_CHECKING"], false⟩]]
      ++ (if properties.any PropertyModel.isResource
        then [[⟨.library "rdflib.term", ["Node"], false⟩]] else [])
      ++ [if supers.isEmpty then [⟨.library runtimeLibrary, ["OntologyInterface"], false⟩]
        else supers.map fun (name, m) => ⟨.sibling m, [name], false⟩]
    deferred :=
      (c.referenced.filter fun (name, _) => name ≠ c.className && !superNames.contains name).map
        fun (name, m) => ⟨.sibling m, [name], false⟩
    definitions := [.cls
      { name := c.className
        bases
        doc := if o.includeDocs && !c.description.isEmpty then some [c.description] else none
        attributes :=
          [{ name := "CLASS_IRI", type := some "ClassVar[str]", value := .inline (quoted c.iri) },
            predicateMap properties]
        methods := properties.map (abstractAccessor o.includeDocs) }] }

/-- The modules of classes by their names. -/
def moduleTable (classes : List ClassModel) : List (String × String) :=
  classes.foldl (fun m c => Assoc.put c.className c.moduleName m) []

def interfaces (o : Options) (classes : List ClassModel) : List Artifact :=
  classes.map fun c =>
    { path := o.modulePath c.moduleName
      kind := .interface
      className := some c.className
      source := interfaceModule o (moduleTable classes) c }

end ShapeForge.Emission
