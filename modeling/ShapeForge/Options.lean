import ShapeForge.Json.Basic
import ShapeForge.Text.CharClass
import ShapeForge.Text.Keyword
import ShapeForge.Text.Segments

/-!
# Options

What a user chooses about the emitted package: the name of its entry function, the name of the
package, and three switches. Options are read from the fields of a JSON object, and every field
that is wrong is reported.
-/

namespace ShapeForge

/-- What is wrong with a field. -/
inductive FieldFault where
  | missing
  | notText
  | notSwitch
  | unreadableSwitch
  | invalid (reason : String)
deriving Repr, DecidableEq

/-- A field and what is wrong with it. -/
structure FieldError where
  field : String
  fault : FieldFault
deriving Repr, DecidableEq

/-- The value of a field, or its error. -/
abbrev Field (α : Type) := Except FieldError α

namespace Field

/-- Requires a text. -/
def text (name : String) (fallback : Option String) (fields : List (String × Json)) :
    Field String :=
  match Assoc.get? name fields, fallback with
  | none, some value => .ok value
  | none, none => .error ⟨name, .missing⟩
  | some (.text value), _ => .ok value
  | some _, _ => .error ⟨name, .notText⟩

/-- The words for a switch that is on. -/
def onWords : List String := ["1", "on", "t", "true", "y", "yes"]

/-- The words for a switch that is off. -/
def offWords : List String := ["0", "off", "f", "false", "n", "no"]

/-- The setting that an integer stands for. -/
def switchOfInt (i : Int) : Except FieldFault Bool :=
  if i = 0 then .ok false else if i = 1 then .ok true else .error .unreadableSwitch

/-- The setting that a JSON value stands for. -/
def switchOfJson : Json → Except FieldFault Bool
  | .bool b => .ok b
  | .int i => switchOfInt i
  | .double d =>
    if d.isIntegral then switchOfInt (d.truncate?.getD 0) else .error .notSwitch
  | .text s =>
    let word := String.ofList (s.toList.map Char.toLower)
    if onWords.contains word then .ok true
    else if offWords.contains word then .ok false
    else .error .unreadableSwitch
  | _ => .error .notSwitch

/-- Requires a switch. -/
def switch (name : String) (fallback : Bool) (fields : List (String × Json)) : Field Bool :=
  match Assoc.get? name fields with
  | none => .ok fallback
  | some value => (switchOfJson value).mapError fun fault => ⟨name, fault⟩

/-- The error of a field, if it has one. -/
def error? {α : Type} : Field α → Option FieldError
  | .error e => some e
  | .ok _ => none

end Field

/-- The options of a run. -/
structure Options where
  dslName : String
  packageName : String
  validationEnabled : Bool := true
  supportLanguageTags : Bool := false
  includeDocs : Bool := true
deriving Repr, DecidableEq

def dottedSegments (name : String) : List String :=
  (Text.segments '.' name.toList).map String.ofList

namespace Options

/-- Whether a text is an ASCII identifier that starts with a letter and is no reserved word. -/
def isDslName (name : String) : Bool :=
  match name.toList with
  | [] => false
  | c :: rest => c.isAlpha && rest.all (fun d => d.isAlphanum || d == '_') && !isKeyword name

def checkDslName (name : String) : Field String :=
  if isDslName name then .ok name
  else .error ⟨"dsl_name", .invalid "dsl_name must be a valid identifier starting with a letter"⟩

/-- Whether a text can name a module. -/
def isModuleName (name : String) : Bool := Text.isIdentifier name && !isKeyword name

/-- Checks the name of the package: each segment names a module. -/
def checkPackageName (name : String) : Field String :=
  match (dottedSegments name).find? (!isModuleName ·) with
  | none => .ok name
  | some part =>
    .error ⟨"package_name", .invalid s!"package_name segment '{part}' is not a valid module name"⟩

/-- Reads options from the fields of an object; other fields count for nothing. -/
def ofFields (fields : List (String × Json)) : Except (List FieldError) Options :=
  let dsl := Field.text "dsl_name" none fields >>= checkDslName
  let package := Field.text "package_name" none fields >>= checkPackageName
  let validation := Field.switch "validation_enabled" true fields
  let tags := Field.switch "support_language_tags" false fields
  let docs := Field.switch "include_docs" true fields
  match dsl, package, validation, tags, docs with
  | .ok dsl, .ok package, .ok validation, .ok tags, .ok docs =>
    .ok ⟨dsl, package, validation, tags, docs⟩
  | _, _, _, _, _ =>
    .error ([dsl.error?, package.error?, validation.error?, tags.error?, docs.error?].filterMap id)

def ofJson : Json → Except (List FieldError) Options
  | .object fields => ofFields fields
  | _ => ofFields []

def toJson (o : Options) : Json := .object [
  ("dsl_name", .text o.dslName),
  ("package_name", .text o.packageName),
  ("validation_enabled", .bool o.validationEnabled),
  ("support_language_tags", .bool o.supportLanguageTags),
  ("include_docs", .bool o.includeDocs)]

/-- The folder of the package. -/
def packagePath (o : Options) : String := o.packageName.map fun c => if c = '.' then '/' else c

end Options

end ShapeForge
