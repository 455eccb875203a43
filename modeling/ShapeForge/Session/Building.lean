import ShapeForge.Session.Wrapping

/-!
# Building in a session

Actions on builders: making them, setting values, validating and building, in the scope of the
session or in a fresh one.
-/

namespace ShapeForge

open Rdf (Graph Term)

/-- The members of builders that are no setters. -/
def builderMembers (o : Options) : List String :=
  ["CLASS_IRI", "scope", "node", "triples", "to_graph", "build"]
    ++ (if o.validationEnabled then ["validate"] else [])

/-- One call of a setter: the name, the value and further arguments. -/
structure SetterCall where
  property : String
  value : Argument
  rest : List Argument := []

/-- One builder of a block: what it is called, its node and its setter calls. -/
structure BlockItem where
  builderName : String
  iri : Argument
  calls : List SetterCall

namespace Action

/-- Makes a builder by the name of its factory. -/
def makeBuilder (builderName : String) (iri : Argument) : Action (ClassModel × Builder) := do
  let s ← get
  match s.package.classes.reverse.find? fun c => c.builderName == builderName with
  | some c =>
    let v ← evaluate iri
    let (node, blanks) ← ofExcept (.build ∘ .notANode) (newNode s.blanks v)
    modify fun s => { s with blanks }
    return (c, { className := c.builderClass, classIri := c.iri, node })
  | none =>
    if Model.reservedBuilders.contains builderName then
      discard (evaluate iri)
      throw .badCall
    else throw .noAttribute

/-- The language tag that further arguments give. -/
def languageOf (o : Options) (p : PropertyModel) (rest : List Argument) :
    Action (Option String) := do
  match rest with
  | [] => return none
  | [tag] =>
    if Emission.takesLanguage o p then
      match ← evaluate tag with
      | .null => return none
      | .text tag => return some tag
      | _ => throw .badCall
    else throw .badCall
  | _ => throw .badCall

/-- Calls a setter. The builder may change even if the value is refused. -/
def callSetter [Platform] (c : ClassModel) (b : Builder) (call : SetterCall) :
    Action (Except BuildError Unit × Builder) := do
  let o := (← get).package.options
  match c.property? call.property with
  | none =>
    if (builderMembers o).contains call.property then throw .badCall else throw .noAttribute
  | some p =>
    let v ← evaluate call.value
    let tag ← languageOf o p call.rest
    let keeping := if p.isList then Keeping.append else .replace
    match p.type with
    | .literal _ datatype => return b.keepLiteral keeping p.rule v datatype tag
    | _ => return b.keepNode keeping p.rule v

def newBuilder (name builderName : String) (iri : Argument) : Action Builder := do
  let (c, b) ← makeBuilder builderName iri
  assign name (.builder c b)
  return b

/-- Sets a value of the builder that a variable holds. What the accessors of wrapped nodes read
cannot be called. -/
def set [Platform] (name : String) (call : SetterCall) : Action Builder := do
  match ← lookup name with
  | .builder c b =>
    let (result, b) ← callSetter c b call
    assign name (.builder c b)
    ofExcept .build result
    return b
  | .wrapper _ =>
    discard (read name [.member call.property])
    discard (evaluate call.value)
    throw .badCall

/-- Validates the builder that a variable holds, over the graph of the scope. -/
def validate [Platform] (name : String) : Action Unit := do
  let (c, b) ← lookupBuilder name
  let p := (← get).package
  unless p.options.validationEnabled do
    throw .noAttribute
  discard (ofExcept .routine (p.call (b.graphOver (← graph)) b.node c.validateFunction))

def build (name : String) : Action Term := do
  let (_, b) ← lookupBuilder name
  modify fun s => { s with scope := b.build s.scope }
  return b.node

/-- Runs a block in a fresh scope. -/
def runBlock [Platform] (items : List BlockItem) : Action Scope :=
  items.foldlM
    (fun scope item => do
      let (c, b) ← makeBuilder item.builderName item.iri
      let b ← item.calls.foldlM
        (fun b call => do
          let (result, b) ← callSetter c b call
          ofExcept .build result
          return b)
        b
      return b.build scope)
    {}

end Action

end ShapeForge
