import ShapeForge.Rdf.Graph
import ShapeForge.Rdf.Vocabulary

/-!
# Collections

The items of an RDF list: each cell has an item and the rest of the list. The walk ends at a node
without a rest, and a node that is met twice is an error.
-/

namespace ShapeForge.Rdf

namespace Graph

/-- The items from a node on. Every step meets another subject of the graph, so `fuel` of one
more than the number of triples is enough. -/
def walkList (g : Graph) : Nat → List Term → Term → Option (List Term)
  | 0, _, _ => none
  | fuel + 1, seen, node =>
    let item := (g.object? node (.iri rdfFirst)).toList
    match g.object? node (.iri rdfRest) with
    | none => some item
    | some rest =>
      if (node :: seen).any rest.same then
        none
      else
        (g.walkList fuel (node :: seen) rest).map (item ++ ·)

/-- The items of a list, or nothing if the list runs into itself. -/
def listItems (g : Graph) (node : Term) : Option (List Term) := g.walkList (g.size + 1) [] node

end Graph

end ShapeForge.Rdf
