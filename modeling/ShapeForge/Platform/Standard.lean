import ShapeForge.Pattern.Matcher
import ShapeForge.Pattern.Reader
import ShapeForge.Platform
import ShapeForge.Rdf.Format

/-!
# The standard platform

Graphs are read from Turtle and N-Triples, expressions by the patterns of this project, and the
texts of datatypes without a family stay as they are.
-/

namespace ShapeForge

/-- Datatypes that keep every text. -/
@[reducible]
def Rdf.Datatypes.kept : Rdf.Datatypes where
  rewrite _ text := text
  text? _ lexical := some lexical

namespace Platform

/-- The base of documents that give none. -/
def documentBase : String := "file:///"

/-- How deep groups can be nested in an expression. -/
def groupDepth : Nat := 490

@[reducible]
def standard : Platform where
  toDatatypes := .kept
  parse format text :=
    (Rdf.Format.ofName? format).bind fun f => @Rdf.Format.read? .kept documentBase f text
  compile flags expression := (Pattern.read groupDepth flags expression).map Pattern.matchesAll
  jsonDepth := 980
  callDepth _ := 970

end Platform

end ShapeForge
