import ShapeForge.Platform.Standard
import ShapeForge.Proofs.FirstOccurrences
import ShapeForge.Proofs.NamePools

/-!
# Classes of a report

A graph knows a class because a shape targets it, because it is declared, because values are to be
instances of it, or because it stands in the hierarchy (`Shape.mem_classIris`). All these classes
are collected, each once. Those that a shape targets are emitted, in the order in which the targets
come first, and the others are reported as skipped (`report_classes`).
-/

namespace ShapeForge

open Rdf (Graph Term Triple)

namespace Rdf

theorem Term.same_iri_iff {t : Term} {s : String} : t.same (.iri s) = true ↔ t = .iri s := by
  rcases t with _ | _ | _ <;> simp [same, folded]

namespace Graph

variable {g : Graph}

theorem mem_subjects {p o : String} {s : Term} :
    s ∈ g.subjects (.iri p) (.iri o) ↔ ⟨s, .iri p, .iri o⟩ ∈ g.triples := by
  simp only [subjects, List.mem_map, List.mem_filter, Bool.and_eq_true, Term.same_iri_iff]
  constructor
  · rintro ⟨⟨_, _, _⟩, ⟨ht, rfl, rfl⟩, rfl⟩
    exact ht
  · exact fun h => ⟨_, ⟨h, rfl, rfl⟩, rfl⟩

/-- Grouping by object keeps the triples of a predicate. -/
theorem mem_byObject {p : String} {t : Triple} :
    t ∈ g.byObject (.iri p) ↔ t ∈ g.triples ∧ t.predicate = .iri p := by
  simp only [byObject, List.mem_flatMap, List.mem_filter, Term.same_iri_iff]
  constructor
  · rintro ⟨o, -, ht, -⟩
    exact ht
  · intro ht
    have hobject : t.object ∈ (g.triples.filter fun t => t.predicate.same (.iri p)).map
        Triple.object :=
      List.mem_map_of_mem (List.mem_filter.2 ⟨ht.1, Term.same_iri_iff.2 ht.2⟩)
    obtain ⟨o, ho, hsame⟩ :=
      List.any_eq_true.1 ((distinctTerms_firstOccurrences _).covers _ hobject)
    exact ⟨o, ho, ht, hsame⟩

end Graph

end Rdf

namespace Shape

/-- A graph knows a class without a shape that targets it: it is declared, or values are to be
instances of it, or it stands at one of the ends of a subclass statement between IRIs. -/
inductive Knows (g : Graph) (iri : String) : Prop
  | declared {kind : String} (hkind : kind = Rdf.rdfsClass ∨ kind = Rdf.owlClass)
    (h : ⟨.iri iri, .iri Rdf.rdfType, .iri kind⟩ ∈ g.triples)
  | referred {subject : Term} (h : ⟨subject, .iri (Rdf.sh "class"), .iri iri⟩ ∈ g.triples)
  | sub {super : String} (h : ⟨.iri iri, .iri Rdf.rdfsSubClassOf, .iri super⟩ ∈ g.triples)
  | super {sub : String} (h : ⟨.iri sub, .iri Rdf.rdfsSubClassOf, .iri iri⟩ ∈ g.triples)

variable {g : Graph} {iri : String} {shapes : List NodeShape}

theorem mem_filterMap_iri? {terms : List Term} :
    iri ∈ terms.filterMap Term.iri? ↔ .iri iri ∈ terms := by
  rw [List.mem_filterMap]
  constructor
  · rintro ⟨t | _ | _, ht, hiri⟩ <;> simp [Term.iri?] at hiri
    rwa [← hiri]
  · exact fun h => ⟨_, h, rfl⟩

theorem mem_instancesOf {kind : String} :
    iri ∈ instancesOf g kind ↔ ⟨.iri iri, .iri Rdf.rdfType, .iri kind⟩ ∈ g.triples := by
  rw [instancesOf, mem_filterMap_iri?, Graph.mem_subjects]

theorem mem_referred : iri ∈ (g.byObject (.iri (Rdf.sh "class"))).filterMap (·.object.iri?) ↔
    ∃ subject, ⟨subject, .iri (Rdf.sh "class"), .iri iri⟩ ∈ g.triples := by
  have hobjects : (g.byObject (.iri (Rdf.sh "class"))).filterMap (·.object.iri?)
      = ((g.byObject (.iri (Rdf.sh "class"))).map Triple.object).filterMap Term.iri? := by
    rw [List.filterMap_map]
    rfl
  rw [hobjects, mem_filterMap_iri?, List.mem_map]
  simp only [Graph.mem_byObject]
  constructor
  · rintro ⟨⟨s, _, _⟩, ⟨ht, rfl⟩, rfl⟩
    exact ⟨s, ht⟩
  · rintro ⟨s, ht⟩
    exact ⟨_, ⟨ht, rfl⟩, rfl⟩

theorem mem_subClassEnds : iri ∈ subClassEnds g ↔
    (∃ super, ⟨.iri iri, .iri Rdf.rdfsSubClassOf, .iri super⟩ ∈ g.triples)
      ∨ ∃ sub, ⟨.iri sub, .iri Rdf.rdfsSubClassOf, .iri iri⟩ ∈ g.triples := by
  simp only [subClassEnds, List.mem_flatMap, Graph.mem_byObject]
  constructor
  · rintro ⟨⟨s, _, o⟩, ⟨ht, rfl⟩, hends⟩
    -- Only a statement between two IRIs has ends.
    rcases s with sub | _ | _ <;> rcases o with super | _ | _ <;> simp at hends
    rcases hends with rfl | rfl
    · exact .inl ⟨super, ht⟩
    · exact .inr ⟨sub, ht⟩
  · rintro (⟨super, ht⟩ | ⟨sub, ht⟩)
    · exact ⟨_, ⟨ht, rfl⟩, by simp⟩
    · exact ⟨_, ⟨ht, rfl⟩, by simp⟩

theorem knows_iff : Knows g iri ↔
    iri ∈ instancesOf g Rdf.rdfsClass ∨ iri ∈ instancesOf g Rdf.owlClass
    ∨ iri ∈ (g.byObject (.iri (Rdf.sh "class"))).filterMap (·.object.iri?)
    ∨ iri ∈ subClassEnds g := by
  rw [mem_instancesOf, mem_instancesOf, mem_referred, mem_subClassEnds]
  constructor
  · rintro (⟨rfl | rfl, h⟩ | h | h | h)
    · exact .inl h
    · exact .inr (.inl h)
    · exact .inr (.inr (.inl ⟨_, h⟩))
    · exact .inr (.inr (.inr (.inl ⟨_, h⟩)))
    · exact .inr (.inr (.inr (.inr ⟨_, h⟩)))
  · rintro (h | h | ⟨_, h⟩ | ⟨_, h⟩ | ⟨_, h⟩)
    · exact .declared (.inl rfl) h
    · exact .declared (.inr rfl) h
    · exact .referred h
    · exact .sub h
    · exact .super h

theorem mem_classIris :
    iri ∈ classIris g shapes ↔ iri ∈ shapes.map NodeShape.targetClass ∨ Knows g iri := by
  rw [knows_iff, classIris]
  simp only [List.mem_append, or_assoc]

/-- The targets of shapes are collected first. -/
theorem exists_classIris_eq (g : Graph) (shapes : List NodeShape) :
    ∃ others, classIris g shapes = shapes.map NodeShape.targetClass ++ others := by
  rw [classIris]
  exact ⟨_, by simp only [List.append_assoc]; rfl⟩

theorem classesOf_iris :
    (classesOf g shapes).map DeclaredClass.iri = distinct (classIris g shapes) := by
  rw [classesOf, List.map_map]
  exact List.map_id _

end Shape

namespace Ontology

variable {o : Ontology}

theorem hasShape_eq (iri : String) :
    o.hasShape iri = (o.shapes.map NodeShape.targetClass).any (iri == ·) := by
  rw [hasShape, List.any_map]
  exact congrArg _ (funext fun s => Bool.beq_comm)

theorem hasShape_iff {iri : String} :
    o.hasShape iri = true ↔ iri ∈ o.shapes.map NodeShape.targetClass := by
  rw [hasShape_eq, List.any_beq, List.contains_iff_mem]

theorem matched_iris :
    o.matched.map DeclaredClass.iri = (o.classes.map DeclaredClass.iri).filter o.hasShape := by
  rw [matched, List.filter_map]
  rfl

theorem skipped_eq :
    o.skipped = (o.classes.map DeclaredClass.iri).filter fun iri => !o.hasShape iri := by
  rw [skipped, List.filter_map]
  rfl

end Ontology

/-- A report has the classes that shapes target, each once, in the order of their first targets.
All other classes that the graph knows are skipped, each once. -/
theorem report_classes [Platform] {source now : String} {context : Option Json} {g : Graph}
    {o : Ontology} {options : Options} {names : Option (List String)} {report : Report}
    {read written : List Notice}
    (hread : (Ontology.ofGraph source context g).outcome = (.ok o, read))
    (hrun : (generate o options names now).outcome = (.ok report, written)) :
    (Shape.shapesOf g).outcome = (.ok o.shapes, read)
      ∧ FirstOccurrences (fun a b => a == b) (o.shapes.map NodeShape.targetClass)
        (report.classes.map ClassModel.iri)
      ∧ (report.classes.map ClassModel.iri).Nodup
      ∧ (∀ iri, iri ∈ report.skipped ↔
        Shape.Knows g iri ∧ iri ∉ o.shapes.map NodeShape.targetClass)
      ∧ report.skipped.Nodup
      ∧ (report.classes.map ClassModel.iri).Disjoint report.skipped := by
  obtain ⟨shapes, terms, hshapes, -, rfl⟩ := Ontology.ofGraph_ok_iff.1 hread
  obtain ⟨generators, files, -, -, -, rfl, -⟩ := generate_ok_iff.1 hrun
  set o : Ontology := ⟨shapes, terms, Shape.classesOf g shapes, source⟩
  have hall := Shape.distinct_firstOccurrences (Shape.classIris g shapes)
  have hnodup : (Shape.distinct (Shape.classIris g shapes)).Nodup :=
    (hall.pairwise sameness_beq).imp fun h => by simpa using h
  have hclasses : o.resolve.1.map ClassModel.iri
      = (Shape.distinct (Shape.classIris g shapes)).filter o.hasShape := by
    rw [Ontology.resolve_iris, Ontology.matched_iris, Shape.classesOf_iris]
  have hskipped : o.skipped
      = (Shape.distinct (Shape.classIris g shapes)).filter fun iri => !o.hasShape iri := by
    rw [Ontology.skipped_eq, Shape.classesOf_iris]
  have hmem : ∀ iri, iri ∈ o.skipped ↔
      Shape.Knows g iri ∧ iri ∉ shapes.map NodeShape.targetClass := by
    intro iri
    have hfound : iri ∈ Shape.distinct (Shape.classIris g shapes) ↔
        iri ∈ Shape.classIris g shapes :=
      ⟨hall.mem, fun h => by simpa using hall.covers iri h⟩
    rw [hskipped, List.mem_filter, hfound, Shape.mem_classIris, Bool.not_eq_true',
      ← Bool.not_eq_true, Ontology.hasShape_iff]
    tauto
  refine ⟨hshapes, ?_, ?_, hmem, ?_, ?_⟩
  · obtain ⟨others, hfront⟩ := Shape.exists_classIris_eq g shapes
    have hshape : o.hasShape = fun iri => (shapes.map NodeShape.targetClass).any (iri == ·) :=
      funext Ontology.hasShape_eq
    rw [hclasses, hshape]
    rw [hfront] at hall ⊢
    exact hall.filter_front sameness_beq
  · rw [hclasses]
    exact hnodup.filter _
  · rw [hskipped]
    exact hnodup.filter _
  · intro iri hc hs
    rw [hclasses, List.mem_filter, Ontology.hasShape_iff] at hc
    exact ((hmem iri).1 hs).2 hc.2

/-- Two shapes that both target `B`, a declared class, and a wider class of `A`. -/
def sharedTargetGraph : Graph where
  triples :=
    [⟨.iri "c", .iri Rdf.rdfType, .iri Rdf.owlClass⟩,
     ⟨.iri "a", .iri Rdf.rdfsSubClassOf, .iri "d"⟩,
     ⟨.iri "s", .iri Rdf.rdfType, .iri (Rdf.sh "NodeShape")⟩,
     ⟨.iri "s", .iri (Rdf.sh "targetClass"), .iri "b"⟩,
     ⟨.iri "t", .iri Rdf.rdfType, .iri (Rdf.sh "NodeShape")⟩,
     ⟨.iri "t", .iri (Rdf.sh "targetClass"), .iri "a"⟩,
     ⟨.iri "t", .iri (Rdf.sh "targetClass"), .iri "b"⟩]

def sharedTargetOntology : Ontology where
  shapes := [⟨"s", "b", []⟩, ⟨"t", "a", []⟩, ⟨"t", "b", []⟩]
  context := {}
  classes := [⟨"b", "B", []⟩, ⟨"a", "A", ["d"]⟩, ⟨"c", "C", []⟩, ⟨"d", "D", []⟩]
  source := "shapes"

section

attribute [local instance] Platform.standard

/-- The class with two shapes is reported once and first; the classes without one are skipped. -/
theorem sharedTarget_report_classes :
    (Ontology.ofGraph "shapes" none sharedTargetGraph).outcome = (.ok sharedTargetOntology, [])
      ∧ ∃ report written,
        (generate sharedTargetOntology ⟨"d", "p", true, false, true⟩ none "").outcome
            = (.ok report, written)
          ∧ report.classes.map ClassModel.iri = ["b", "a"] ∧ report.skipped = ["c", "d"]
          ∧ FirstOccurrences (fun a b => a == b) ["b", "a", "b"]
            (report.classes.map ClassModel.iri)
          ∧ Shape.Knows sharedTargetGraph "d" := by
  have hread : (Ontology.ofGraph "shapes" none sharedTargetGraph).outcome
      = (.ok sharedTargetOntology, []) :=
    Ontology.ofGraph_of_shapes (by decide +kernel) (by decide +kernel) rfl rfl
  have hclasses : sharedTargetOntology.resolve.1.map ClassModel.iri = ["b", "a"] := by
    rw [Ontology.resolve_eq_evaluate]
    decide +kernel
  have hskipped : sharedTargetOntology.skipped = ["c", "d"] := by decide +kernel
  have hready : sharedTargetOntology.isWalkable = true
      ∧ Emission.checkDslNames ⟨"d", "p", true, false, true⟩ sharedTargetOntology.resolve.1
        = .ok ()
      ∧ Emission.IsWritten ⟨"d", "p", true, false, true⟩ sharedTargetOntology.resolve.1 := by
    rw [Ontology.resolve_eq_evaluate]
    decide +kernel
  obtain ⟨report, written, hrun⟩ := generate_default_iff.2 hready
  obtain ⟨-, hfirst, -, hmem, -, -⟩ := report_classes hread hrun
  obtain ⟨_, _, -, -, -, rfl, -⟩ := generate_ok_iff.1 hrun
  refine ⟨hread, _, written, hrun, hclasses, hskipped, hfirst, ((hmem "d").1 ?_).1⟩
  change "d" ∈ sharedTargetOntology.skipped
  rw [hskipped]
  decide

end

end ShapeForge
