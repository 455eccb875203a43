import ShapeForge.Emission.Artifact
import ShapeForge.Emission.Names
import ShapeForge.Text.Quoted

/-!
# The instance DSL

One builder for every class, a scope that makes builders, and an entry function that runs a block
in a fresh scope. The entry function and the scope must not take the name of anything else in the
package.
-/

namespace ShapeForge.Emission

open Text (quoted)

/-- Why a package cannot be emitted. -/
inductive GenerationError where
  | unknownGenerator (name : String) (available : List String)
  | scopeCollides (scope : String)
  | entryCollides (name : String)
  /-- An integer has more digits than are written. -/
  | longInteger
  /-- A chain of super classes is too long to be walked. -/
  | tooDeep
deriving Repr, DecidableEq

def GenerationError.message : GenerationError → String
  | .unknownGenerator name available =>
    s!"Unknown generator '{name}'. Available: " ++ ", ".intercalate available
  | .scopeCollides scope => s!"DSL scope class '{scope}' collides with a generated name"
  | .entryCollides name => s!"dsl_name '{name}' collides with a generated name"
  | .longInteger =>
    "Exceeds the limit (4300 digits) for integer string conversion; "
      ++ "use sys.set_int_max_str_digits() to increase the limit"
  | .tooDeep => "maximum recursion depth exceeded"

/-- The names that the DSL and the package import or define, whatever the classes. -/
def dslImports : List String :=
  ["annotations", "register", "Callable", "Optional", "Graph", "Node", "InstanceBuilder",
    "InstanceScope", "RdfBacked"]

/-- The names that neither the scope nor the entry function may take. -/
def dslTaken (classes : List ClassModel) : List String :=
  dslImports
    ++ classes.flatMap (fun c =>
      [c.className, c.moduleName, c.builderClass, c.rulesConstant, c.validateFunction,
        c.wrapperClass, c.wrapperModule])
    ++ Model.reservedModules

/-- Checks the names of the scope and the entry function. -/
def checkDslNames (o : Options) (classes : List ClassModel) : Except GenerationError Unit :=
  let taken := dslTaken classes
  if taken.contains o.scopeClass then .error (.scopeCollides o.scopeClass)
  else if taken.contains o.dslName || o.dslName == o.scopeClass then
    .error (.entryCollides o.dslName)
  else .ok ()

/-- Whether the setter of a property takes a language tag. -/
def takesLanguage (o : Options) (p : PropertyModel) : Bool :=
  o.supportLanguageTags && p.type.isText

def setter (o : Options) (c : ClassModel) (p : PropertyModel) : Function :=
  let rule := c.rulesConstant ++ "[" ++ quoted p.name ++ "]"
  let action := "return self." ++ if p.isList then "_add" else "_set"
  let (parameters, call) : List String × String := match p.type with
    | .literal type datatype =>
      let datatype := (datatype.map quoted).getD "None"
      if takesLanguage o p then
        (["value: " ++ type.name, "lang: Optional[str] = None"],
          s!"{action}_literal({rule}, value, {datatype}, lang)")
      else
        (["value: " ++ type.name], s!"{action}_literal({rule}, value, {datatype})")
    | _ => (["value: Node | str | InstanceBuilder | RdfBacked"], s!"{action}_object({rule}, value)")
  let verb := if p.isList then "Add one value to" else "Set"
  { name := p.name
    parameters := "self" :: parameters
    result := some c.builderClass
    doc := if o.includeDocs then [s!"{verb} {p.name} ({p.iri}, {p.countSummary})."] else []
    body := [call] }

/-- The method that validates what a builder holds. -/
def validateMethod (o : Options) (c : ClassModel) : Function :=
  { name := "validate"
    parameters := ["self"]
    result := some c.builderClass
    doc :=
      if o.includeDocs then
        ["Check the accumulated triples; raise ValidationError listing every violation."]
      else []
    body := [c.validateFunction ++ "(self.node, self.to_graph())", "return self"] }

def builder (o : Options) (c : ClassModel) : Class :=
  { name := c.builderClass
    bases := ["InstanceBuilder"]
    doc := if o.includeDocs then some [s!"Builds one {c.className} instance."] else none
    attributes := [{ name := "CLASS_IRI", value := .inline (quoted c.iri) }]
    methods :=
      c.properties.map (setter o c) ++ (if o.validationEnabled then [validateMethod o c] else []) }

def scope (o : Options) (classes : List ClassModel) : Class :=
  { name := o.scopeClass
    bases := ["InstanceScope"]
    doc := if o.includeDocs then some ["Collects built instances into one graph."] else none
    methods := classes.map fun c =>
      { name := c.builderName
        parameters := ["self", "iri=None"]
        result := some c.builderClass
        body := ["return " ++ c.builderClass ++ "(self, iri)"] } }

def entry (o : Options) : Function :=
  { name := o.dslName
    parameters := ["block: Optional[Callable[[" ++ o.scopeClass ++ "], None]] = None"]
    result := some "tuple[Graph, list[Node]]"
    doc :=
      if o.includeDocs then
        [s!"Run block against a fresh {o.scopeClass} and return (graph, built instances)."]
      else []
    body :=
      ["scope = " ++ o.scopeClass ++ "()", "if block is not None:", "    block(scope)",
        "return scope.result()"] }

/-- What the DSL imports from the validation module. -/
def validationNames (o : Options) (classes : List ClassModel) : List String :=
  classes.map ClassModel.rulesConstant
    ++ (if o.validationEnabled then classes.map ClassModel.validateFunction else [])

def dslModule (o : Options) (classes : List ClassModel) : SourceModule :=
  let imported := validationNames o classes
  { doc :=
      if o.includeDocs then
        [s!"Instance DSL: builders and the {o.dslName}() entry point."]
      else []
    imports :=
      [[⟨.library "typing", ["Callable", "Optional"], false⟩],
       [⟨.library "rdflib", ["Graph"], false⟩, ⟨.library "rdflib.term", ["Node"], false⟩],
       ⟨.library runtimeLibrary, ["InstanceBuilder", "InstanceScope", "RdfBacked"], false⟩
        :: (if imported.isEmpty then [] else [⟨.sibling "validation", imported, true⟩])]
    definitions :=
      classes.map (fun c => .cls (builder o c)) ++ [.cls (scope o classes), .function (entry o)] }

def instanceDsl (o : Options) (classes : List ClassModel) : List Artifact :=
  [{ path := o.modulePath "dsl", kind := .instanceDsl, source := dslModule o classes }]

end ShapeForge.Emission
