import ShapeForge.Model.Typing
import ShapeForge.Number.Bound
import ShapeForge.Number.Numeral
import ShapeForge.Rdf.Term

/-!
# Scalar values

The values that literals are read as. The lexical forms are those of XML Schema, which are
stricter than the texts that literals are built from.
-/

namespace ShapeForge

/-- A value that a literal is read as; a text keeps its language tag. -/
inductive ScalarValue where
  | integer (value : Int)
  | real (value : Double)
  | boolean (value : Bool)
  | text (value : String) (lang : Option String)
deriving Repr, DecidableEq

/-- Why a text is no value of a type. -/
inductive LexicalError where
  | malformed (type : ScalarType) (lexical : String)
  /-- An integer has more digits than are read. -/
  | tooLong
deriving Repr, DecidableEq

def LexicalError.message : LexicalError → String
  | .malformed type lexical =>
    let kind := match type with
      | .integer => "integer"
      | .real => "floating-point"
      | .boolean => "boolean"
      | .text => "text"
    s!"invalid {kind} lexical form '{lexical}'"
  | .tooLong => "too many digits"

namespace Scalar

/-- Reads an integer: a sign and ASCII digits. -/
def integer (lexical : String) : Except LexicalError Int :=
  let digits := (Numeral.takeSign lexical.toList).2
  if digits.isEmpty || !digits.all Char.isDigit then
    .error (.malformed .integer lexical)
  else
    match Numeral.integer? lexical with
    | some i => .ok i
    | none => .error .tooLong

/-- Whether the characters are an exponent or nothing. -/
def isExponent (cs : List Char) : Bool :=
  match cs with
  | [] => true
  | c :: rest =>
    let digits := (Numeral.takeSign rest).2
    (c == 'e' || c == 'E') && !digits.isEmpty && digits.all Char.isDigit

/-- Whether a text is a decimal with a sign, ASCII digits, a point and an exponent, of which the
digits on one side of the point are needed. -/
def isDecimalForm (lexical : String) : Bool :=
  let (whole, rest) := ((Numeral.takeSign lexical.toList).2).span Char.isDigit
  match rest with
  | '.' :: rest =>
    let (fraction, rest) := rest.span Char.isDigit
    !(whole.isEmpty && fraction.isEmpty) && isExponent rest
  | _ => !whole.isEmpty && isExponent rest

/-- Reads a double: a decimal, an infinity or not-a-number. -/
def real (lexical : String) : Except LexicalError Double :=
  if lexical = "INF" || lexical = "+INF" then .ok (.infinite false)
  else if lexical = "-INF" then .ok (.infinite true)
  else if lexical = "NaN" then .ok .nan
  else if isDecimalForm lexical then
    match Numeral.double? lexical with
    | some d => .ok d
    | none => .error (.malformed .real lexical)
  else .error (.malformed .real lexical)

def boolean (lexical : String) : Except LexicalError Bool :=
  if lexical = "true" || lexical = "1" then .ok true
  else if lexical = "false" || lexical = "0" then .ok false
  else .error (.malformed .boolean lexical)

end Scalar

def ScalarType.read (type : ScalarType) (lexical : String) : Except LexicalError ScalarValue :=
  match type with
  | .text => .ok (.text lexical none)
  | .integer => (Scalar.integer lexical).map .integer
  | .real => (Scalar.real lexical).map .real
  | .boolean => (Scalar.boolean lexical).map .boolean

/-- What a rule or an accessor says about its values: a scalar type, or something whose values are
no literals. -/
inductive ValueType where
  | scalar (type : ScalarType)
  | other (name : String)
deriving Repr, DecidableEq

namespace ValueType

def name : ValueType → String
  | .scalar type => type.name
  | .other name => name

def ofName (name : String) : ValueType :=
  match [ScalarType.text, .integer, .real, .boolean].find? fun t => t.name == name with
  | some type => .scalar type
  | none => .other name

/-- Reads a text; types without literals keep it. -/
def read (type : ValueType) (lexical : String) : Except LexicalError ScalarValue :=
  match type with
  | .scalar type => type.read lexical
  | .other _ => .ok (.text lexical none)

/-- The value of a term; nothing if it is no literal or malformed. A text keeps its language
tag. -/
def readTerm? (type : ValueType) : Rdf.Term → Option ScalarValue
  | .literal l =>
    match type with
    | .scalar .text => some (.text l.lexical (l.lang.filter (!·.isEmpty)))
    | type => (type.read l.lexical).toOption
  | _ => none

end ValueType

def ScalarValue.number? : ScalarValue → Option Bound
  | .integer i => some (.int i)
  | .real d => some (.double d)
  | _ => none

end ShapeForge
