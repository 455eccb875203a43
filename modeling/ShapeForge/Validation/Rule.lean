import ShapeForge.Platform
import ShapeForge.Text.Quoted
import ShapeForge.Value.Scalar

/-!
# Rules

A rule says what the values of one property must satisfy; a violation names a constraint that
fails. Checking a node collects every violation; checking a value stops at the first. A violation
whose message cannot be written, or an expression that has no pattern, ends the checking.
-/

namespace ShapeForge

open Rdf (Graph Term)

/-- The constraints on the values of a predicate. -/
structure Rule where
  name : String
  path : String
  valueType : ValueType := .scalar .text
  constraints : Constraints := {}
deriving Repr, DecidableEq

/-- A constraint that fails. -/
structure Violation where
  focusNode : String
  property : String
  path : String
  /-- The constraint component. -/
  constraint : String
  message : String
  value : Option String := none
deriving Repr, DecidableEq

/-- Why a value cannot be checked. -/
inductive CheckError where
  | pattern (error : PatternError)
  /-- A bound is beyond all doubles and cannot be shown. -/
  | overflow
  /-- A limit of a count or a length has more digits than are written. -/
  | longInteger
deriving Repr, DecidableEq

/-- A bound as messages show it. -/
def Bound.shown (b : Bound) : Except CheckError String :=
  match b with
  | .int i =>
    match Double.ofInt i with
    | .infinite _ => .error .overflow
    | _ => .ok b.label
  | .double _ => .ok b.label

/-- Texts as messages list them. -/
def listed (items : List String) : String :=
  "[" ++ ", ".intercalate (items.map Text.quoted) ++ "]"

namespace Rule

def predicate (r : Rule) : Term := .iri r.path

def violation (r : Rule) (focus constraint message : String) (value : Option String) :
    Violation :=
  { focusNode := focus, property := r.name, path := r.path, constraint, message, value }

/-- The violation of a limit that is broken. Its message shows the limit. -/
def limitViolation (r : Rule) (focus constraint : String) (limit : Option Int)
    (isBroken : Int → Bool) (message : Int → String) (value : Option String) :
    Except CheckError (List Violation) :=
  match limit with
  | none => .ok []
  | some limit =>
    if !isBroken limit then .ok []
    else if Numeral.isWritable limit then
      .ok [r.violation focus constraint (message limit) value]
    else .error .longInteger

def countViolations (r : Rule) (focus : String) (count : Int) :
    Except CheckError (List Violation) := do
  let tooFew ← r.limitViolation focus "minCount" (some r.constraints.minCount) (count < ·)
    (fun least =>
      if least = 1 then s!"{r.name} is required (minCount=1)"
      else s!"{r.name} must have at least {least} values (minCount={least}), found {count}")
    none
  let tooMany ← r.limitViolation focus "maxCount" r.constraints.maxCount (· < count)
    (fun most => s!"{r.name} must have at most {most} values (maxCount={most}), found {count}")
    none
  return tooFew ++ tooMany

def lengthViolations (r : Rule) (focus lexical : String) :
    Except CheckError (List Violation) := do
  let length := lexical.length
  let tooShort ← r.limitViolation focus "minLength" r.constraints.minLength (length < ·)
    (fun least =>
      s!"{r.name} must have length >= {least} (minLength), got {length} for '{lexical}'")
    (some lexical)
  let tooLong ← r.limitViolation focus "maxLength" r.constraints.maxLength (· < length)
    (fun most => s!"{r.name} must have length <= {most} (maxLength), got {length} for '{lexical}'")
    (some lexical)
  return tooShort ++ tooLong

def patternViolations [Platform] (r : Rule) (focus lexical : String) :
    Except CheckError (List Violation) :=
  match r.constraints.pattern with
  | none => .ok []
  | some expression =>
    match Platform.compile (.ofText (r.constraints.flags.getD "")) expression with
    | .error e => .error (.pattern e)
    | .ok accepts =>
      if accepts lexical then .ok []
      else .ok [r.violation focus "pattern"
        s!"{r.name} must match pattern '{expression}' (pattern), got '{lexical}'" (some lexical)]

def memberViolations (r : Rule) (focus text : String) : List Violation :=
  match r.constraints.inValues with
  | none => []
  | some values =>
    if values.contains text then []
    else [r.violation focus "in"
      s!"{r.name} must be one of {listed values} (in), got '{text}'" (some text)]

/-- A bound with the test that a value must pass. -/
structure BoundCheck where
  constraint : String
  symbol : String
  bound : Option Bound
  passes : Bound → Bound → Bool

/-- The bounds of a rule, each with its test of a value against it. -/
def boundChecks (c : Constraints) : List BoundCheck :=
  [⟨"minInclusive", ">=", c.minInclusive, fun v b => b.le v⟩,
   ⟨"maxInclusive", "<=", c.maxInclusive, fun v b => v.le b⟩,
   ⟨"minExclusive", ">", c.minExclusive, fun v b => b.lt v⟩,
   ⟨"maxExclusive", "<", c.maxExclusive, fun v b => v.lt b⟩]

def boundViolation (r : Rule) (focus lexical : String) (value : Bound) (check : BoundCheck) :
    Except CheckError (List Violation) :=
  match check.bound with
  | none => .ok []
  | some bound =>
    if check.passes value bound then .ok []
    else do
      let shown ← bound.shown
      return [r.violation focus check.constraint
        s!"{r.name} must be {check.symbol} {shown} ({check.constraint}), got {lexical}"
        (some lexical)]

/-- The violations of the type and the bounds by a literal. -/
def typeViolations (r : Rule) (focus lexical : String) : Except CheckError (List Violation) :=
  match r.valueType with
  | .other _ | .scalar .text => .ok []
  | .scalar type =>
    match type.read lexical with
    | .error _ =>
      .ok [r.violation focus "datatype"
        s!"{r.name} must be a valid {type.name} (datatype), got '{lexical}'" (some lexical)]
    | .ok value =>
      match value.number? with
      | none => .ok []
      | some number => do
        let found ← (boundChecks r.constraints).mapM (r.boundViolation focus lexical number)
        return found.flatten

/-- The violations by one value: of length, pattern, listed values, type and bounds. Only the list
of values concerns terms that are no literals. -/
def valueViolations [Platform] (r : Rule) (focus : String) (t : Term) :
    Except CheckError (List Violation) :=
  let text := t.text
  if t.isLiteral then do
    let length ← r.lengthViolations focus text
    let pattern ← r.patternViolations focus text
    let type ← r.typeViolations focus text
    return length ++ pattern ++ r.memberViolations focus text ++ type
  else
    .ok (r.memberViolations focus text)

def hasValueViolations (r : Rule) (focus : String) (values : List Term) : List Violation :=
  match r.constraints.hasValue with
  | none => []
  | some required =>
    if values.any fun v => v.text == required then []
    else [r.violation focus "hasValue"
      s!"{r.name} must include the value '{required}' (hasValue)" none]

/-- All violations of a rule by a node of a graph. -/
def violations [Platform] (r : Rule) (g : Graph) (node : Term) :
    Except CheckError (List Violation) := do
  let values := g.objects node r.predicate
  let count ← r.countViolations node.text values.length
  let each ← values.mapM (r.valueViolations node.text)
  return count ++ each.flatten ++ r.hasValueViolations node.text values

def firstViolation? [Platform] (r : Rule) (focus : String) (t : Term) :
    Except CheckError (Option Violation) :=
  (r.valueViolations focus t).map List.head?

end Rule

def shapeViolations [Platform] (rules : List Rule) (g : Graph) (node : Term) :
    Except CheckError (List Violation) :=
  (rules.mapM fun (r : Rule) => r.violations g node).map List.flatten

/-- The message of a failed validation: what failed, and what every violation says. -/
def failureMessage (subject : String) (violations : List Violation) : String :=
  let details := "; ".intercalate (violations.map Violation.message)
  if details.isEmpty then subject else subject ++ ": " ++ details

end ShapeForge
