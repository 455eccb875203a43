import ShapeForge.Model.Basic
import ShapeForge.Pattern.Basic
import ShapeForge.Rdf.Graph
import ShapeForge.Rdf.Literal

/-!
# Platforms

What a run gets from outside: the readers of graphs and of regular expressions, the datatypes
without a family, and how deep calls may be nested. Nothing is assumed of a platform, so what holds
of a run holds whatever formats it reads, and however it reads them.

All texts are sequences of Unicode scalar values: one with half a surrogate pair in it has no
encoding, and no platform gives or takes it.
-/

namespace ShapeForge

class Platform extends Rdf.Datatypes where
  /-- The graph of a text in the format of a name, if it has one. -/
  parse : (format text : String) → Option Rdf.Graph
  /-- Whether a whole text matches an expression. -/
  compile : Pattern.Flags → (expression : String) → Except PatternError (String → Bool)
  /-- How deep the lists and objects of a JSON text may be nested. -/
  jsonDepth : Nat
  /-- How deep the resolution of an ontology may go from classes to their super classes. -/
  callDepth : Ontology → Nat

end ShapeForge
