import ShapeForge.Rdf.Term

/-!
# Graphs

A graph is a set of triples that remembers the order in which they were inserted: objects,
subjects and predicates are enumerated in that order. A triple that is there already is not
inserted again, so the first spelling of a language tag stays and no statement is there twice
(`Graph.distinct`).
-/

namespace ShapeForge.Rdf

/-- A statement. -/
structure Triple where
  subject : Term
  predicate : Term
  object : Term
deriving Repr, DecidableEq

/-- Whether two triples are the same statement. -/
def Triple.same (a b : Triple) : Bool :=
  a.subject.same b.subject && a.predicate.same b.predicate && a.object.same b.object

/-- The texts that triples are sorted by. -/
def Triple.sortKey (t : Triple) : List String :=
  t.subject.sortKey ++ t.predicate.sortKey ++ t.object.sortKey

theorem Triple.same_comm (a b : Triple) : a.same b = b.same a := by
  simp only [Triple.same, Term.same_comm a.subject, Term.same_comm a.predicate,
    Term.same_comm a.object]

/-- A graph, by its triples in the order of their insertion. -/
@[ext]
structure Graph where
  triples : List Triple
  /-- No two triples are the same statement. -/
  distinct : triples.Pairwise (fun a b => a.same b = false) := by decide +kernel
deriving Repr

/-- The terms without the repeated ones, in order of first occurrence. -/
def distinctTerms (terms : List Term) : List Term :=
  terms.foldl (fun seen t => if seen.any t.same then seen else seen ++ [t]) []

namespace Graph

def empty : Graph := ⟨[], .nil⟩

def contains (g : Graph) (t : Triple) : Bool := g.triples.any t.same

theorem distinct_append (g : Graph) {t : Triple} (h : ¬g.contains t = true) :
    (g.triples ++ [t]).Pairwise (fun a b => a.same b = false) := by
  refine List.pairwise_append.2 ⟨g.distinct, by simp, fun a ha b hb => ?_⟩
  obtain rfl : b = t := by simpa using hb
  rw [Triple.same_comm]
  exact Bool.eq_false_iff.2 fun hsame => h (List.any_eq_true.2 ⟨a, ha, hsame⟩)

/-- Inserts a triple at the end, unless it is there already. -/
def insert (g : Graph) (t : Triple) : Graph :=
  if h : g.contains t then g else ⟨g.triples ++ [t], g.distinct_append h⟩

def insertAll (g : Graph) (ts : List Triple) : Graph := ts.foldl insert g

def ofList (ts : List Triple) : Graph := insertAll .empty ts

/-- Removes the triples of a subject and a predicate: the one with the given object, or all. -/
def erase (g : Graph) (subject predicate : Term) (object : Option Term) : Graph :=
  ⟨g.triples.filter fun t =>
    !(t.subject.same subject && t.predicate.same predicate && object.all t.object.same),
    g.distinct.filter _⟩

def size (g : Graph) : Nat := g.triples.length

/-- The objects of a subject and a predicate, in insertion order. -/
def objects (g : Graph) (subject predicate : Term) : List Term :=
  (g.triples.filter fun t => t.subject.same subject && t.predicate.same predicate).map
    Triple.object

/-- The first object of a subject and a predicate. -/
def object? (g : Graph) (subject predicate : Term) : Option Term :=
  (g.objects subject predicate).head?

/-- The subjects of a predicate and an object, in insertion order. -/
def subjects (g : Graph) (predicate object : Term) : List Term :=
  (g.triples.filter fun t => t.predicate.same predicate && t.object.same object).map
    Triple.subject

/-- The triples of a predicate, grouped by object: the objects come in order of their first
insertion, the triples of one object in insertion order. -/
def byObject (g : Graph) (predicate : Term) : List Triple :=
  let ts := g.triples.filter fun t => t.predicate.same predicate
  (distinctTerms (ts.map Triple.object)).flatMap fun o => ts.filter fun t => t.object.same o

/-- The predicates of a subject, in order of their first insertion. -/
def predicates (g : Graph) (subject : Term) : List Term :=
  distinctTerms ((g.triples.filter fun t => t.subject.same subject).map Triple.predicate)

/-- The triples of a subject, grouped by predicate: the predicates come in order of their first
insertion, the triples of one predicate in insertion order. -/
def byPredicate (g : Graph) (subject : Term) : List Triple :=
  (g.predicates subject).flatMap fun p =>
    g.triples.filter fun t => t.subject.same subject && t.predicate.same p

/-- The triples in the order of their texts. -/
def sorted (g : Graph) : List Triple :=
  g.triples.mergeSort fun a b => Term.keyAtMost a.sortKey b.sortKey

end Graph

end ShapeForge.Rdf
