import ShapeForge.Emission.Docstring

/-!
# Source modules

An emitted module as data: its documentation, its imports in groups, and its definitions. The
layout of every module is fixed here, so the modules that build them only say what they hold.
-/

namespace ShapeForge.Emission

/-- Where imported names come from. -/
inductive Origin where
  /-- A module outside the package. -/
  | library (path : String)
  /-- Another module of the package. -/
  | sibling (moduleName : String)
  /-- The package, whose modules are its names. -/
  | package
deriving Repr, DecidableEq

/-- The origin as an import names it. -/
def Origin.text : Origin → String
  | .library path => path
  | .sibling moduleName => "." ++ moduleName
  | .package => "."

structure Import where
  origin : Origin
  names : List String
  /-- Whether every name has a line of its own. -/
  stacked : Bool := false
deriving Repr, DecidableEq

def Import.lines (i : Import) : List String :=
  let start := "from " ++ i.origin.text ++ " import "
  if i.stacked then
    (start ++ "(") :: i.names.map (fun name => "    " ++ name ++ ",") ++ [")"]
  else
    [start ++ ", ".intercalate i.names]

/-- What is assigned: a text on the same line, or entries on lines of their own. -/
inductive Assigned where
  | inline (text : String)
  | entries (opening : String) (items : List String) (closing : String)
deriving Repr, DecidableEq

structure Assignment where
  name : String
  type : Option String := none
  value : Assigned
deriving Repr, DecidableEq

def Assignment.lines (indent : String) (a : Assignment) : List String :=
  let start := indent ++ a.name ++ (a.type.map (": " ++ ·)).getD "" ++ " = "
  match a.value with
  | .inline text => [start ++ text]
  | .entries opening items closing =>
    (start ++ opening) :: items.map (fun item => indent ++ "    " ++ item ++ ",")
      ++ [indent ++ closing]

/-- A function or a method. -/
structure Function where
  decorators : List String := []
  name : String
  parameters : List String
  result : Option String := none
  doc : List String := []
  body : List String
deriving Repr, DecidableEq

def Function.lines (indent : String) (f : Function) : List String :=
  f.decorators.map (fun d => indent ++ "@" ++ d)
    ++ [indent ++ "def " ++ f.name ++ "(" ++ ", ".intercalate f.parameters ++ ")"
      ++ (f.result.map (" -> " ++ ·)).getD "" ++ ":"]
    ++ docstring (indent ++ "    ") f.doc
    ++ f.body.map (indent ++ "    " ++ ·)

structure Class where
  name : String
  bases : List String
  doc : Option (List String) := none
  attributes : List Assignment := []
  methods : List Function := []
deriving Repr, DecidableEq

/-- The lines of a class. Attributes stand together, an empty line before them if there is
documentation; every method has an empty line before it. -/
def Class.lines (c : Class) : List String :=
  let doc := match c.doc with
    | none => []
    | some lines => docstring "    " lines ++ (if c.attributes.isEmpty then [] else [""])
  let body := c.attributes.flatMap (Assignment.lines "    ")
    ++ c.methods.flatMap fun m => "" :: m.lines "    "
  ("class " ++ c.name ++ "(" ++ ", ".intercalate c.bases ++ "):")
    :: doc ++ (if c.doc.isNone && body.isEmpty then ["    pass"] else body)

/-- What stands at the top level of a module. -/
inductive Definition where
  | cls (definition : Class)
  | function (definition : Function)
  | assignment (definition : Assignment)
  /-- A call of a function without arguments. -/
  | call (name : String)
deriving Repr, DecidableEq

def Definition.lines : Definition → List String
  | .cls c => c.lines
  | .function f => f.lines ""
  | .assignment a => a.lines ""
  | .call name => [name ++ "()"]

/-- An emitted module. -/
structure SourceModule where
  doc : List String
  /-- Groups of imports, with an empty line between two of them. -/
  imports : List (List Import)
  /-- Imports that only annotations need. -/
  deferred : List Import := []
  definitions : List Definition := []
deriving Repr, DecidableEq

/-- Lines joined into a text that ends with one line break. -/
def render (lines : List String) : String :=
  let text := ("\n".intercalate lines).toList
  String.ofList ((text.reverse.dropWhile (· = '\n')).reverse ++ ['\n'])

namespace SourceModule

/-- The first line of every module. -/
def header : String := "# Generated by ontogen. Do not edit."

def importLines (groups : List (List Import)) : List String :=
  [""].intercalate (groups.map fun group => group.flatMap Import.lines)

def lines (m : SourceModule) : List String :=
  header :: docstring "" m.doc
    ++ ["", "from __future__ import annotations", ""]
    ++ importLines m.imports
    ++ (if m.deferred.isEmpty then []
      else "" :: "if TYPE_CHECKING:" :: (m.deferred.flatMap Import.lines).map ("    " ++ ·))
    ++ m.definitions.flatMap fun d => "" :: "" :: d.lines

def text (m : SourceModule) : String := render m.lines

end SourceModule

end ShapeForge.Emission
