import ShapeForge.Model.Reader

/-!
# Ontologies from files

A file is named by its source, its extension says which format it has, and every line break in it
counts as a line feed.
-/

namespace ShapeForge

/-- The formats of extensions; a file with another extension holds Turtle. -/
def extensionFormats : List (String × String) :=
  [("ttl", "turtle"), ("n3", "n3"), ("trig", "trig"), ("nt", "nt"), ("nq", "nquads"),
    ("nquads", "nquads"), ("xml", "xml"), ("rdf", "xml"), ("owl", "xml"), ("trix", "trix"),
    ("xhtml", "rdfa"), ("html", "rdfa"), ("svg", "rdfa"), ("json", "json-ld"),
    ("jsonld", "json-ld"), ("json-ld", "json-ld")]

/-- The extension of a file name, in small letters. A name that starts with its only dots has
none. -/
def extensionOf (name : String) : String :=
  let cs := name.toList
  let extension := Naming.afterLast '.' cs
  let stem := cs.take (cs.length - extension.length - 1)
  if stem.all (· = '.') then "" else String.ofList (extension.map Char.toLower)

def formatOfFile (name : String) : String :=
  (Assoc.get? (extensionOf name) extensionFormats).getD "turtle"

/-- Every line break made a line feed. -/
def lineFeeds : List Char → List Char
  | '\r' :: '\n' :: rest => '\n' :: lineFeeds rest
  | c :: rest => (if c = '\r' then '\n' else c) :: lineFeeds rest
  | [] => []

/-- The text of a file as it is read. -/
def fileText (content : String) : String := String.ofList (lineFeeds content.toList)

/-- The ontology of a shapes file and an optional context file. -/
def Ontology.ofFile [Platform] (name content : String) (context : Option String) :
    Noted OntologyError Ontology :=
  ofText name (formatOfFile name) (fileText content)
    (context.map fun text => .text (fileText text))

end ShapeForge
