import ShapeForge.Emission.Artifact
import ShapeForge.Emission.Names
import ShapeForge.Text.Quoted

/-!
# Wrappers

One class for every class model that implements its interface over a node of a graph. Accessors
read the graph once and keep what they read. Loading a wrapper registers it.
-/

namespace ShapeForge.Emission

open Text (quoted)

/-- The expression that reads a property. -/
def readExpression (p : PropertyModel) : String :=
  let predicate := "URIRef(" ++ quoted p.iri ++ ")"
  let plural (one many : String) := if p.isList then many else one
  match p.type with
  | .object className _ =>
    "self.rdf." ++ plural "object" "objects" ++ "(" ++ predicate ++ ", " ++ className ++ ")"
  | .resource => "self.rdf." ++ plural "resource" "resources" ++ "(" ++ predicate ++ ")"
  | .literal type _ =>
    "self.rdf." ++ plural "literal" "literals" ++ "(" ++ predicate ++ ", " ++ quoted type.name
      ++ ")"

/-- An accessor that keeps what it reads. -/
def cachedAccessor (p : PropertyModel) : Function :=
  { decorators := ["cached_property"]
    name := p.name
    parameters := ["self"]
    result := some p.annotationText
    body := ["return " ++ readExpression p] }

/-- The class variable of the predicates that accessors read. -/
def knownPredicatesAttribute (predicates : List String) : Assignment :=
  { name := "KNOWN_PREDICATES"
    value :=
      if predicates.isEmpty then .inline "frozenset()"
      else .entries "frozenset(\x7b" (predicates.map fun iri => "URIRef(" ++ quoted iri ++ ")")
        "\x7d)" }

def wrapperConstructor (validator : String) : Function :=
  { name := "__init__"
    parameters := ["self", "handle: RdfHandle"]
    body :=
      ["RdfBacked.__init__(self, handle.bind(self.KNOWN_PREDICATES, " ++ validator ++ "))"] }

/-- The function that registers what a module defines. -/
def registerFunction (doc body : List String) : Function :=
  { name := "register"
    parameters := ["registry: WrapperRegistry = default_registry"]
    result := some "None"
    doc
    body }

/-- The module of a wrapper. -/
def wrapperSource (o : Options) (c : ClassModel) : SourceModule :=
  { doc :=
      if o.includeDocs then [s!"Graph-backed implementation of {c.className}."] else []
    imports :=
      [[⟨.library "functools", ["cached_property"], false⟩,
        ⟨.library "typing", ["Optional"], false⟩],
       ⟨.library "rdflib", ["URIRef"], false⟩
        :: (if c.properties.any PropertyModel.isResource
          then [⟨.library "rdflib.term", ["Node"], false⟩] else []),
       [⟨.library runtimeLibrary, ["RdfBacked", "RdfHandle", "WrapperRegistry",
          "default_registry"], false⟩,
        ⟨.sibling c.moduleName, [c.className], false⟩]
        ++ (c.referenced.filter fun (name, _) => name ≠ c.className).map
          (fun (name, m) => ⟨.sibling m, [name], false⟩)
        ++ (if o.validationEnabled
          then [⟨.sibling "validation", [c.violationsFunction], false⟩] else [])]
    definitions :=
      [.cls
        { name := c.wrapperClass
          bases := [c.className, "RdfBacked"]
          attributes := [knownPredicatesAttribute c.knownPredicates]
          methods :=
            wrapperConstructor (if o.validationEnabled then c.violationsFunction else "None")
              :: c.properties.map cachedAccessor },
       .function (registerFunction []
        ["registry.register(" ++ c.className ++ ", " ++ c.wrapperClass ++ ")"]),
       .call "register"] }

def wrappers (o : Options) (classes : List ClassModel) : List Artifact :=
  classes.map fun c =>
    { path := o.modulePath c.wrapperModule
      kind := .wrapper
      className := some c.className
      source := wrapperSource o c }

end ShapeForge.Emission
