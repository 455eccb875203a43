import ShapeForge.Number.Decimal
import ShapeForge.Number.Shortest
import ShapeForge.Rdf.Term
import ShapeForge.Rdf.Vocabulary
import ShapeForge.Text.Segments

/-!
# Literals

A literal of a known datatype stands for a value, and its lexical form is the canonical text of
that value. A text that is no form of its datatype stays as it is and stands for itself. What is
made of the other datatypes, dates and binary data among them, is a parameter (`Datatypes`).
-/

namespace ShapeForge.Rdf

/-- The datatypes that literals are read by. -/
inductive DatatypeFamily where
  | integer
  | double
  | decimal
  | boolean
  | normalizedString
  | token
  | text
deriving Repr, DecidableEq

/-- The integer datatypes of XML Schema. -/
def integerDatatypes : List String :=
  ["integer", "nonPositiveInteger", "negativeInteger", "long", "int", "short", "byte",
    "nonNegativeInteger", "unsignedLong", "unsignedInt", "unsignedShort", "unsignedByte",
    "positiveInteger"].map xsd

/-- The family of a datatype; nothing if its literals are read outside the project. -/
def DatatypeFamily.of? (datatype : String) : Option DatatypeFamily :=
  if integerDatatypes.contains datatype then some .integer
  else if datatype = xsd "double" || datatype = xsd "float" then some .double
  else if datatype = xsd "decimal" then some .decimal
  else if datatype = xsd "boolean" then some .boolean
  else if datatype = xsd "normalizedString" then some .normalizedString
  else if datatype = xsd "token" then some .token
  else if ["string", "anyURI", "language"].any fun name => datatype = xsd name then some .text
  else none

/-- The value that a literal stands for. -/
inductive LiteralValue where
  | integer (value : Int)
  | double (value : Double)
  | decimal (value : Decimal)
  | boolean (value : Bool)
  | text (value : String)
  /-- A value that is neither a number nor a text, such as a date, by its lexical form. -/
  | other (lexical : String)
deriving Repr, DecidableEq

/-- The datatypes without a family. -/
class Datatypes where
  /-- The lexical form that a text gets under a datatype. -/
  rewrite : (datatype text : String) → String
  /-- The text that a lexical form stands for; nothing if its value is no text. -/
  text? : (datatype lexical : String) → Option String

/-- Tabs and line breaks made spaces. -/
def spaced (text : String) : String :=
  text.map fun c => if c = '\t' || c = '\n' || c = '\r' then ' ' else c

/-- Every run of spaces made one. -/
def squeezeSpaces : List Char → List Char
  | ' ' :: ' ' :: rest => squeezeSpaces (' ' :: rest)
  | c :: rest => c :: squeezeSpaces rest
  | [] => []

/-- The text of a token: blanks are single spaces, and none stands at an end. -/
def tokenText (text : String) : String :=
  String.ofList (squeezeSpaces (Text.strip (spaced text).toList))

/-- Whether the text of a boolean means true; every other text means false. -/
def meansTrue (text : String) : Bool :=
  Numeral.spells "true" text.toList || text == "1"

/-- The value of a text under a family of datatypes. -/
def valueOf (text : String) (family : DatatypeFamily) : LiteralValue :=
  match family with
  | .integer => ((Numeral.integer? text).map .integer).getD (.text text)
  | .double => ((Numeral.double? text).map .double).getD (.text text)
  | .decimal => ((Decimal.read? text).map .decimal).getD (.text text)
  | .boolean => .boolean (meansTrue text)
  | .normalizedString => .text (spaced text)
  | .token => .text (tokenText text)
  | .text => .text text

/-- The canonical text of a value. -/
def LiteralValue.canonical : LiteralValue → String
  | .integer i => toString i
  | .double d => d.text
  | .decimal d => d.plain
  | .boolean b => if b then "true" else "false"
  | .text s => s
  | .other lexical => lexical

/-- The lexical form that a text gets under a datatype. -/
def formOf [Datatypes] (datatype text : String) : String :=
  match DatatypeFamily.of? datatype with
  | some family => (valueOf text family).canonical
  | none => Datatypes.rewrite datatype text

/-- Whether the characters are subtags with hyphens between them: letters in the first subtag,
letters and digits in the others. -/
def isLangBody (cs : List Char) : Bool :=
  match Text.segments '-' cs with
  | [] => false
  | first :: others =>
    !first.isEmpty && first.all Char.isAlpha &&
      others.all fun tag => !tag.isEmpty && tag.all Char.isAlphanum

/-- Whether a text is a language tag; one line break may follow it. -/
def isLangTag (tag : String) : Bool :=
  let cs := tag.toList
  isLangBody (if cs.getLast? = some '\n' then cs.dropLast else cs)

/-- Why there is no such literal. -/
inductive LiteralError where
  | badLanguage
  | languageAndDatatype
  /-- An integer has more digits than are written. -/
  | longInteger
deriving Repr, DecidableEq

namespace Literal

/-- The value that a literal stands for. -/
def value [Datatypes] (l : Literal) : LiteralValue :=
  match l.datatype with
  | none => .text l.lexical
  | some datatype =>
    match DatatypeFamily.of? datatype with
    | some family => valueOf l.lexical family
    | none => ((Datatypes.text? datatype l.lexical).map .text).getD (.other l.lexical)

/-- The literal of a datatype, in the form that the datatype gives it. -/
def typed [Datatypes] (lexical datatype : String) : Literal :=
  { lexical := formOf datatype lexical, datatype := some datatype }

/-- The literal without datatype or language tag. -/
def plain (lexical : String) : Literal := { lexical }

/-- The literal with a language tag; the empty tag is none. -/
def tagged (lexical tag : String) : Except LiteralError Literal :=
  if tag.isEmpty then .ok (plain lexical)
  else if isLangTag tag then .ok { lexical, lang := some tag }
  else .error .badLanguage

/-- The literal with what is given of datatype and language tag. -/
def make [Datatypes] (lexical : String) (datatype lang : Option String) :
    Except LiteralError Literal :=
  match datatype, lang with
  | none, none => .ok (plain lexical)
  | none, some tag => tagged lexical tag
  | some datatype, none => .ok (typed lexical datatype)
  | some datatype, some tag =>
    if tag.isEmpty then .ok (typed lexical datatype) else .error .languageAndDatatype

end Literal

end ShapeForge.Rdf
