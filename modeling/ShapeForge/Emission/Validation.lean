import ShapeForge.Emission.Artifact
import ShapeForge.Emission.Constant
import ShapeForge.Emission.Names

/-!
# Validation rules

One module holds the rules of every class: a rule says what the values of one property must
satisfy. With validation enabled, each class also gets a function that lists all violations of a
node and one that fails if there are any.
-/

namespace ShapeForge.Emission

open Text (quoted)

/-- The constraints of a rule by keyword, in the order in which they are written. A least count of
zero says nothing and is left out. -/
def ruleArguments (c : Constraints) : List (String × Constant) :=
  let number (n : Int) : Constant := .number (.int n)
  [("min_count", if c.minCount = 0 then none else some (number c.minCount)),
   ("max_count", c.maxCount.map number),
   ("min_length", c.minLength.map number),
   ("max_length", c.maxLength.map number),
   ("pattern", c.pattern.map .text),
   ("flags", c.flags.map .text),
   ("in_values", c.inValues.map .texts),
   ("min_inclusive", c.minInclusive.map .number),
   ("max_inclusive", c.maxInclusive.map .number),
   ("min_exclusive", c.minExclusive.map .number),
   ("max_exclusive", c.maxExclusive.map .number),
   ("has_value", c.hasValue.map .text)].filterMap fun (key, value) => value.map (key, ·)

/-- The integers that the rule of a property shows. -/
def ruleIntegers (p : PropertyModel) : List Int :=
  (ruleArguments p.constraints).flatMap fun argument => argument.2.integers

/-- The expression that makes the rule of a property. -/
def ruleExpression (p : PropertyModel) : String :=
  let arguments : List (String × Constant) :=
    [("name", .text p.name), ("path", .text p.iri), ("value_type", .text p.valueType)]
      ++ ruleArguments p.constraints
  "PropertyRule("
    ++ ", ".intercalate (arguments.map fun (key, value) => key ++ "=" ++ value.source) ++ ")"

/-- The constant that holds the rules of a class. -/
def rulesAssignment (c : ClassModel) : Assignment :=
  { name := c.rulesConstant
    type := some "dict[str, PropertyRule]"
    value :=
      if c.properties.isEmpty then .inline "\x7b\x7d"
      else .entries "\x7b" (c.properties.map fun p => quoted p.name ++ ": " ++ ruleExpression p)
        "\x7d" }

/-- The function that lists the violations of a node. -/
def violationsRoutine (o : Options) (c : ClassModel) : Function :=
  { name := c.violationsFunction
    parameters := ["node", "graph"]
    result := some "list[Violation]"
    doc := if o.includeDocs then [s!"Every violation of the {c.className} shape on node."] else []
    body := ["return shape_violations(" ++ c.rulesConstant ++ ".values(), graph, node)"] }

/-- The function that fails if a node has violations. -/
def validateRoutine (o : Options) (c : ClassModel) : Function :=
  { name := c.validateFunction
    parameters := ["node", "graph"]
    result := some "None"
    doc :=
      if o.includeDocs then
        [s!"Raise ValidationError listing every violation of the {c.className} shape on node."]
      else []
    body :=
      ["violations = " ++ c.violationsFunction ++ "(node, graph)",
       "if violations:",
       "    raise ValidationError(f\"" ++ c.className
        ++ " \x7bnode\x7d failed validation\", violations)"] }

def validationModule (o : Options) (classes : List ClassModel) : SourceModule :=
  { doc := if o.includeDocs then ["Constraint rules and validation routines."] else []
    imports := [[⟨.library runtimeLibrary,
      "PropertyRule" :: (if o.validationEnabled
        then ["ValidationError", "Violation", "shape_violations"] else []), false⟩]]
    definitions :=
      classes.map (fun c => .assignment (rulesAssignment c))
        ++ (if o.validationEnabled
          then classes.flatMap fun c =>
            [.function (violationsRoutine o c), .function (validateRoutine o c)]
          else []) }

def validation (o : Options) (classes : List ClassModel) : List Artifact :=
  [{ path := o.modulePath "validation"
     kind := .validation
     source := validationModule o classes }]

end ShapeForge.Emission
