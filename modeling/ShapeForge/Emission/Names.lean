import ShapeForge.Model.Names
import ShapeForge.Options

/-!
# Names across modules

The names by which the modules of a package refer to each other.
-/

namespace ShapeForge

namespace ClassModel

def wrapperClass (c : ClassModel) : String := Model.wrapperName c.className

def wrapperModule (c : ClassModel) : String := Model.wrapperModule c.moduleName

def builderClass (c : ClassModel) : String := Model.builderClassName c.className

/-- The constant that holds the rules. -/
def rulesConstant (c : ClassModel) : String :=
  String.ofList (c.moduleName.toList.map Char.toUpper) ++ "_RULES"

/-- The function that lists violations. -/
def violationsFunction (c : ClassModel) : String := c.moduleName ++ "_violations"

/-- The function that fails on a violation. -/
def validateFunction (c : ClassModel) : String := "validate_" ++ c.moduleName

/-- The name and module of every emitted class that the properties refer to, each once. -/
def referenced (c : ClassModel) : List (String × String) :=
  c.properties.foldl
    (fun seen p => match p.type with
      | .object className moduleName =>
        if seen.contains (className, moduleName) then seen else seen ++ [(className, moduleName)]
      | _ => seen)
    []

end ClassModel

namespace PropertyModel

/-- What the rules call the type of the values. -/
def valueType (p : PropertyModel) : String :=
  match p.type with
  | .literal type _ => type.name
  | type => type.kind

def annotationText (p : PropertyModel) : String :=
  if p.isList then "list[" ++ p.type.name ++ "]" else "Optional[" ++ p.type.name ++ "]"

/-- The counts in words. -/
def countSummary (p : PropertyModel) : String :=
  let greatest := (p.constraints.maxCount.map toString).getD "unbounded"
  s!"minCount={p.constraints.minCount}, maxCount={greatest}"

/-- The integers of the counts in words. -/
def shownCounts (p : PropertyModel) : List Int :=
  p.constraints.minCount :: p.constraints.maxCount.toList

/-- Whether the values are plain resources. -/
def isResource (p : PropertyModel) : Bool :=
  match p.type with
  | .resource => true
  | _ => false

end PropertyModel

namespace Options

def scopeClass (o : Options) : String := Naming.toPascalCase o.dslName ++ "Dsl"

def modulePath (o : Options) (moduleName : String) : String :=
  o.packagePath ++ "/" ++ moduleName ++ ".py"

end Options

namespace Emission

/-- The library that emitted modules import. -/
def runtimeLibrary : String := "ontogen.runtime"

end Emission

end ShapeForge
