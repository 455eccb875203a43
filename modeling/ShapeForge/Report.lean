import ShapeForge.Emission.Generator
import ShapeForge.Json.Printer
import ShapeForge.Model.Dictionary
import ShapeForge.Model.Walk

/-!
# Reports

A run resolves an ontology once, hands the same class models to every generator, and reports what
came of it: as JSON, as a table, or as all files in one text.
-/

namespace ShapeForge

open Emission (Artifact GenerationError Generator)

/-- What came of a run. -/
structure Report where
  source : String
  packageName : String
  dslName : String
  generatedAt : String
  generators : List String
  classes : List ClassModel
  /-- The classes without a shape. -/
  skipped : List String
  files : List Artifact

/-- The class models of an ontology, unless its hierarchy is too deep to be walked. -/
def Ontology.classModels [Platform] (o : Ontology) : Noted GenerationError (List ClassModel) :=
  if o.isWalkable then do
    let (classes, notices) := o.resolve
    Noted.noteAll notices
    return classes
  else do
    -- The classes are named before the walk.
    Noted.noteAll (Model.nameClasses o.matched).notices
    throw .tooDeep

/-- Emits the package of an ontology. Without names of generators, all of them run. -/
def generate [Platform] (o : Ontology) (options : Options) (names : Option (List String))
    (now : String) : Noted GenerationError Report := do
  let classes ← o.classModels
  let generators ← liftM (Generator.choose names)
  let files ← liftM (Emission.emit options classes generators)
  return {
    source := o.source
    packageName := options.packageName
    dslName := options.dslName
    generatedAt := now
    generators := generators.map Generator.name
    classes
    skipped := o.skipped
    files }

namespace Report

def file? (r : Report) (path : String) : Option Artifact := r.files.find? fun f => f.path == path

/-- The contents by paths once all files are written: of two files with one path, the later one
stays. -/
def contents (r : Report) : List (String × String) :=
  r.files.foldl (fun written f => Assoc.put f.path f.content written) []

/-- Whether every file is there with its content once all are written. -/
def keepsAll (r : Report) : Bool :=
  r.files.all fun f => Assoc.get? f.path r.contents == some f.content

/-- The numbers of classes, skipped classes and files. -/
def summary (r : Report) : Json := .object [
  ("classes", .int r.classes.length),
  ("skipped", .int r.skipped.length),
  ("files", .int r.files.length)]

def fileJson (f : Artifact) : Json := .object [
  ("path", .text f.path),
  ("kind", .text f.kind.name),
  ("class_name", .ofText? f.className),
  ("content", .text f.content)]

def toJson (r : Report) : Json := .object [
  ("source", .text r.source),
  ("package_name", .text r.packageName),
  ("dsl_name", .text r.dslName),
  ("generated_at", .text r.generatedAt),
  ("generators", .texts r.generators),
  ("summary", r.summary),
  ("classes", .list (r.classes.map ClassModel.toJson)),
  ("skipped", .texts r.skipped),
  ("files", .list (r.files.map fileJson))]

/-- The lines of a class in the table. -/
def classLines (c : ClassModel) : List String :=
  let supers := if c.supers.isEmpty then "" else " (" ++ ", ".intercalate c.supers ++ ")"
  s!"  ✓ {c.className}{supers}  <{c.iri}>" :: c.properties.map fun p =>
    let shape := (if p.isList then "list" else "scalar")
      ++ (if p.isRequired then " required" else "")
    s!"      → {p.name}: {p.type.name} [{shape}]"

def table (r : Report) : String :=
  let counts := s!"  {r.classes.length} classes  |  {r.files.length} files  |  "
    ++ s!"{r.skipped.length} skipped"
  "\n".intercalate
    (["ontogen generation report", s!"  schema: {r.source}", s!"  package: {r.packageName}",
        s!"  generated: {r.generatedAt}", "", counts, ""]
      ++ (if r.classes.isEmpty then []
        else "  CLASSES:" :: "" :: r.classes.flatMap classLines ++ [""])
      ++ (if r.skipped.isEmpty then []
        else "  SKIPPED (no shape):" :: r.skipped.map ("  - " ++ ·) ++ [""])
      ++ "  FILES:" :: r.files.map fun f => s!"    {f.path}  ({f.kind.name})")

/-- All files in one text. -/
def dryRun (r : Report) : String :=
  "\n".intercalate (r.files.flatMap fun f =>
    [s!"# ── {f.path} ({f.kind.name}) ──", f.content])

end Report

end ShapeForge
