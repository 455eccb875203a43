import ShapeForge.Model.Reader
import ShapeForge.Report

/-!
# The playground

One request holds a shapes text, a context and options; one answer holds the report, or says why
there is none. Failures that a user can mend are answered, others are passed on: numbers beyond all
bounds, terms that are no texts, and whatever is nested too deep.
-/

namespace ShapeForge

/-- Why a run fails. -/
inductive RunError where
  | options (errors : List FieldError)
  | ontology (error : OntologyError)
  | generation (error : Emission.GenerationError)
deriving Repr, DecidableEq

/-- The answer to a failure that a user can mend. -/
def RunError.answer? : RunError → Option String
  | .options _ => some "ValidationError"
  | .ontology (.shape .overflow) => none
  | .ontology (.shape .cyclicList) => some s!"ValueError: {ShapeError.cyclicList.message}"
  | .ontology (.shape e) => some s!"ShaclParseError: {e.message}"
  | .ontology (.context _ .notText) | .ontology (.context _ .tooDeep) => none
  | .ontology (.context source (.longInteger digits)) =>
    some s!"ValueError: {(ContextError.longInteger digits).message source}"
  | .ontology (.context source e) => some s!"ContextParseError: {e.message source}"
  | .generation .tooDeep => none
  | .generation .longInteger => some s!"ValueError: {Emission.GenerationError.longInteger.message}"
  | .generation e => some s!"GenerationError: {e.message}"

namespace Playground

structure Request where
  shacl : String
  context : String
  format : String
  dslName : String
  packageName : String
  validationEnabled : Bool
  supportLanguageTags : Bool
  includeDocs : Bool
deriving Repr, DecidableEq

/-- Reads a request from the fields of an object. -/
def Request.ofFields (fields : List (String × Json)) : Except (List FieldError) Request :=
  let shacl := Field.text "shacl" none fields
  let context := Field.text "context" (some "") fields
  let format := Field.text "format" (some "turtle") fields
  let dsl := Field.text "dsl_name" (some "instances") fields
  let package := Field.text "package_name" (some "generated") fields
  let validation := Field.switch "validation_enabled" true fields
  let tags := Field.switch "support_language_tags" false fields
  let docs := Field.switch "include_docs" true fields
  match shacl, context, format, dsl, package, validation, tags, docs with
  | .ok shacl, .ok context, .ok format, .ok dsl, .ok package, .ok validation, .ok tags,
    .ok docs => .ok ⟨shacl, context, format, dsl, package, validation, tags, docs⟩
  | _, _, _, _, _, _, _, _ =>
    .error ([shacl.error?, context.error?, format.error?, dsl.error?, package.error?,
      validation.error?, tags.error?, docs.error?].filterMap id)

/-- The options of a request, once its names are checked. -/
def Request.options (r : Request) : Except (List FieldError) Options :=
  let dsl := Options.checkDslName r.dslName
  let package := Options.checkPackageName r.packageName
  match dsl, package with
  | .ok dsl, .ok package =>
    .ok ⟨dsl, package, r.validationEnabled, r.supportLanguageTags, r.includeDocs⟩
  | _, _ => .error ([Field.error? dsl, Field.error? package].filterMap id)

/-- The report of a request. An empty context is none. -/
def Request.report [Platform] (r : Request) (now : String) : Noted RunError Report := do
  let options ← liftM (r.options.mapError RunError.options)
  let context := if r.context.isEmpty then none else some (Json.text r.context)
  let o ← (Ontology.ofText "<playground>" r.format r.shacl context).adapt RunError.ontology
  (generate o options none now).adapt RunError.generation

def Request.answer [Platform] (r : Request) (now : String) : Noted RunError Json := do
  try
    let report ← r.report now
    return .object [
      ("ok", .bool true),
      ("report", report.toJson),
      ("summary", .text report.table),
      ("source", .text report.dryRun)]
  catch e =>
    match e.answer? with
    | some text => return .object [("ok", .bool false), ("error", .text text)]
    | none => throw e

end Playground

end ShapeForge
