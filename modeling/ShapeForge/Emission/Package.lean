import ShapeForge.Emission.Wrapper

/-!
# The package index

The module through which a package is loaded. It loads every wrapper, which registers it, and
exports the classes, wrappers, builders, the scope and the entry function.
-/

namespace ShapeForge.Emission

open Text (quoted)

/-- What the index exports from the DSL. -/
def dslNames (o : Options) (classes : List ClassModel) : List String :=
  classes.map ClassModel.builderClass ++ [o.scopeClass, o.dslName]

/-- What the index exports. -/
def exports (o : Options) (classes : List ClassModel) : List String :=
  classes.map ClassModel.className ++ classes.map ClassModel.wrapperClass ++ dslNames o classes
    ++ ["register"]

def indexModule (o : Options) (classes : List ClassModel) : SourceModule :=
  let registrations := classes.map fun c => c.wrapperModule ++ ".register(registry)"
  { doc := if o.includeDocs then [s!"Generated ontology package {o.packageName}."] else []
    imports :=
      [[⟨.library runtimeLibrary, ["WrapperRegistry", "default_registry"], false⟩],
       classes.map (fun c => ⟨.sibling c.moduleName, [c.className], false⟩)
        ++ classes.map (fun c => ⟨.sibling c.wrapperModule, [c.wrapperClass], false⟩)
        ++ classes.map (fun c => ⟨.package, [c.wrapperModule], false⟩)
        ++ [⟨.sibling "dsl", dslNames o classes, true⟩]]
    definitions :=
      [.function (registerFunction
        (if o.includeDocs then ["Register every wrapper of this package with registry."] else [])
        (if classes.isEmpty && !o.includeDocs then ["pass"] else registrations)),
       .assignment
        { name := "__all__"
          value := .entries "[" ((exports o classes).map quoted) "]" }] }

/-- The index of a package. -/
def package (o : Options) (classes : List ClassModel) : List Artifact :=
  [{ path := o.modulePath "__init__", kind := .package, source := indexModule o classes }]

end ShapeForge.Emission
