import ShapeForge.Rdf.NTriples

/-!
# Formats

The formats that a graph is read from, by their names. A Turtle text is a text of the formats that
extend Turtle too, so these names are read as Turtle.
-/

namespace ShapeForge.Rdf

inductive Format where
  | turtle
  | nTriples
deriving Repr, DecidableEq

namespace Format

def ofName? (name : String) : Option Format :=
  if ["turtle", "ttl", "text/turtle", "n3", "trig"].contains name then some .turtle
  else if ["nt", "ntriples", "nt11", "application/n-triples"].contains name then some .nTriples
  else none

/-- The graph of a text at a base, if it has one. -/
def read? [Datatypes] (base : String) : Format → String → Option Graph
  | .turtle => Turtle.read? base
  | .nTriples => NTriples.read?

end Format

end ShapeForge.Rdf
