import ShapeForge.Platform.Standard
import ShapeForge.Proofs.Outcome
import ShapeForge.Proofs.Resolution

/-!
# Names and files of a package are distinct

The classes of a graph have distinct IRIs, so the names that naming keeps apart are distinct over
the whole package: classes with their wrappers and builders, modules with those of the wrappers,
and builder names (`namesApart_resolve`).

The files of a package are one for each module of a class and of a wrapper, and three that every
package has. No module is called like one of these three, so no two files have the same path
(`NamesApart.packageModules_nodup`).
-/

namespace ShapeForge

open Emission (Artifact Generator GenerationError)

/-- The names of the emitted classes, with those of their wrappers and builders. -/
def classPool (classes : List ClassModel) : List String :=
  classes.flatMap fun c => [c.className, c.wrapperClass, c.builderClass]

/-- The names of the emitted modules, with those of the wrappers. -/
def modulePool (classes : List ClassModel) : List String :=
  classes.flatMap fun c => [c.moduleName, c.wrapperModule]

/-- No two emitted things of a kind have one name, none has a reserved one, and each module is
named after its class. -/
structure NamesApart (classes : List ClassModel) : Prop where
  classes_nodup : (classPool classes).Nodup
  classes_free : (classPool classes).Disjoint Model.reservedClasses
  modules_nodup : (modulePool classes).Nodup
  modules_free : (modulePool classes).Disjoint Model.reservedModules
  builders_nodup : (classes.map ClassModel.builderName).Nodup
  builders_free : (classes.map ClassModel.builderName).Disjoint Model.reservedBuilders
  moduleName : ∀ c ∈ classes, c.moduleName = Naming.moduleNameFor c.className

/-! ## Classes of a graph -/

theorem foldl_distinct_nodup : ∀ (texts seen : List String), seen.Nodup →
    (texts.foldl (fun seen t => if seen.contains t then seen else seen ++ [t]) seen).Nodup
  | [], _, h => h
  | t :: texts, seen, h => by
    rw [List.foldl_cons]
    refine foldl_distinct_nodup texts _ ?_
    split_ifs with ht
    · exact h
    · refine h.append (List.nodup_singleton t) ?_
      rw [List.disjoint_singleton]
      simpa using ht

theorem classesOf_iris_nodup (g : Rdf.Graph) (shapes : List NodeShape) :
    ((Shape.classesOf g shapes).map DeclaredClass.iri).Nodup := by
  have h := foldl_distinct_nodup (Shape.classIris g shapes) [] List.nodup_nil
  rw [Shape.classesOf, List.map_map]
  simpa [Function.comp_def, Shape.distinct] using h

namespace Ontology

variable {o : Ontology}

theorem resolve_iris_nodup (h : (o.classes.map DeclaredClass.iri).Nodup) :
    (o.resolve.1.map ClassModel.iri).Nodup := by
  rw [o.resolve_iris]
  exact h.sublist (List.filter_sublist.map _)

theorem proper_of_mem_resolve {c : ClassModel} (hc : c ∈ o.resolve.1) : c.names.Proper :=
  (Model.nameClasses_sound o.matched).proper _ (o.mem_classNames_of_mem_resolve hc)

theorem resolve_pairwise_apart (h : (o.classes.map DeclaredClass.iri).Nodup) :
    o.resolve.1.Pairwise fun c d => c.names.Apart d.names := by
  have hp : o.resolve.1.Pairwise fun c d => c.iri ≠ d.iri :=
    List.pairwise_map.1 (resolve_iris_nodup h)
  exact hp.imp_of_mem fun hc hd hne => o.apart_of_iri_ne hc hd hne

/-- Classes that are declared once have names apart. -/
theorem namesApart_resolve (h : (o.classes.map DeclaredClass.iri).Nodup) :
    NamesApart o.resolve.1 where
  classes_nodup := List.nodup_flatMap.2
    ⟨fun c _ => c.names.classPool_nodup, (resolve_pairwise_apart h).imp fun ha => ha.classes⟩
  classes_free := by
    intro x hx
    obtain ⟨c, hc, hx⟩ := List.mem_flatMap.1 hx
    exact (proper_of_mem_resolve hc).classes hx
  modules_nodup := List.nodup_flatMap.2
    ⟨fun c _ => c.names.modulePool_nodup, (resolve_pairwise_apart h).imp fun ha => ha.modules⟩
  modules_free := by
    intro x hx
    obtain ⟨c, hc, hx⟩ := List.mem_flatMap.1 hx
    exact (proper_of_mem_resolve hc).modules hx
  builders_nodup := List.pairwise_map.2 ((resolve_pairwise_apart h).imp fun ha => ha.builders)
  builders_free := by
    intro x hx
    obtain ⟨c, hc, rfl⟩ := List.mem_map.1 hx
    exact (proper_of_mem_resolve hc).builder
  moduleName := fun _ hc => (proper_of_mem_resolve hc).moduleName

end Ontology

/-! ## Files of a package -/

theorem modulePath_injective (options : Options) : Function.Injective options.modulePath := by
  intro m n h
  simpa [Options.modulePath] using h

/-- The modules of a package: those of its classes and wrappers, and three of its own. -/
def packageModules (classes : List ClassModel) : List String :=
  classes.map ClassModel.moduleName ++ classes.map ClassModel.wrapperModule
    ++ ["validation", "dsl", "__init__"]

theorem emit_all_paths {options : Options} {classes : List ClassModel} {files : List Artifact}
    (h : Emission.emit options classes Generator.all = .ok files) :
    files.map Artifact.path = (packageModules classes).map options.modulePath := by
  obtain ⟨-, -, rfl⟩ := emit_all_ok_iff.1 h
  simp [Emission.interfaces, Emission.wrappers, Emission.validation, Emission.package,
    packageModules]
  rfl

/-- No module is named like the index of the package: it would start with two underscores. -/
theorem moduleNameFor_ne_index (name : String) : Naming.moduleNameFor name ≠ "__init__" := by
  intro h
  obtain ⟨c, rest, hl, hc⟩ := Naming.moduleNameFor_head name
  have hi : "__init__".toList = '_' :: '_' :: ['i', 'n', 'i', 't', '_', '_'] := by decide
  rw [h, hi, List.cons.injEq] at hl
  obtain ⟨rfl, rfl⟩ := hl
  rcases hc with hc | ⟨d, more, hd, hdigit⟩
  · exact absurd hc (by decide)
  · rw [List.cons.injEq] at hd
    rw [← hd.1] at hdigit
    exact absurd hdigit (by decide)

theorem wrapperModule_ne_index (name : String) : Model.wrapperModule name ≠ "__init__" := by
  intro h
  have hl := congrArg (fun s => s.toList.getLast?) h
  simp [Model.wrapperModule] at hl

/-- Two names for each class, up to order: all of the one kind, then all of the other. -/
theorem flatMap_pair_perm {α β : Type} (f g : α → β) (l : List α) :
    (l.flatMap fun a => [f a, g a]).Perm (l.map f ++ l.map g) := by
  have h := List.flatMap_append_perm l (fun a => [f a]) fun a => [g a]
  simpa [List.map_eq_flatMap] using h.symm

theorem modulePool_perm (classes : List ClassModel) :
    (modulePool classes).Perm
      (classes.map ClassModel.moduleName ++ classes.map ClassModel.wrapperModule) :=
  flatMap_pair_perm _ _ classes

theorem NamesApart.packageModules_nodup {classes : List ClassModel} (h : NamesApart classes) :
    (packageModules classes).Nodup := by
  have hp := modulePool_perm classes
  refine (hp.nodup h.modules_nodup).append (by decide) fun m hm hown => ?_
  -- Two of the modules that every package has are reserved; the third is no module's name.
  simp only [List.mem_cons, List.not_mem_nil, or_false] at hown
  have hfree : m ∉ Model.reservedModules := h.modules_free (hp.mem_iff.2 hm)
  rcases hown with rfl | rfl | rfl
  · exact hfree (by decide)
  · exact hfree (by decide)
  · simp only [List.mem_append, List.mem_map] at hm
    rcases hm with ⟨c, hc, hm⟩ | ⟨c, -, hm⟩
    · exact moduleNameFor_ne_index c.className (h.moduleName c hc ▸ hm)
    · exact wrapperModule_ne_index c.moduleName hm

/-- A package generated from a graph has its names apart, and no two of its files have the same
path. -/
theorem generated_names_apart [Platform] {source now : String} {context : Option Json}
    {g : Rdf.Graph}
    {o : Ontology} {options : Options} {report : Report} {read written : List Notice}
    (hread : (Ontology.ofGraph source context g).outcome = (.ok o, read))
    (hgen : (generate o options none now).outcome = (.ok report, written)) :
    NamesApart report.classes ∧ (report.files.map Artifact.path).Nodup := by
  obtain ⟨shapes, terms, -, -, rfl⟩ := Ontology.ofGraph_ok_iff.1 hread
  obtain ⟨generators, files, -, hchoose, hemit, rfl, -⟩ := generate_ok_iff.1 hgen
  have happart := Ontology.namesApart_resolve
    (o := ⟨shapes, terms, Shape.classesOf g shapes, source⟩) (classesOf_iris_nodup g shapes)
  refine ⟨happart, ?_⟩
  cases hchoose
  rw [emit_all_paths hemit]
  exact happart.packageModules_nodup.map (modulePath_injective options)

/-- A shape for a class, after one for a class that is named like its wrapper. -/
def wrapperLikeGraph : Rdf.Graph where
  triples :=
    [⟨.iri "shape", .iri Rdf.rdfType, .iri (Rdf.sh "NodeShape")⟩,
     ⟨.iri "shape", .iri (Rdf.sh "targetClass"), .iri "http://ex.org/MovieWrapper"⟩,
     ⟨.iri "shape", .iri (Rdf.sh "targetClass"), .iri "http://ex.org/Movie"⟩]

def wrapperLikeOntology : Ontology where
  shapes := [⟨"shape", "http://ex.org/MovieWrapper", []⟩, ⟨"shape", "http://ex.org/Movie", []⟩]
  context := {}
  classes :=
    [⟨"http://ex.org/MovieWrapper", "MovieWrapper", []⟩, ⟨"http://ex.org/Movie", "Movie", []⟩]
  source := "movies"

section

attribute [local instance] Platform.standard

/-- The class whose wrapper would be taken is given another name. -/
theorem wrapperLike_names_apart :
    (Ontology.ofGraph "movies" none wrapperLikeGraph).outcome = (.ok wrapperLikeOntology, [])
      ∧ ∃ report written,
        (generate wrapperLikeOntology ⟨"movie_dsl", "movies", true, false, true⟩ none "").outcome
            = (.ok report, written)
          ∧ report.classes.map ClassModel.className = ["MovieWrapper", "Movie_2"]
          ∧ NamesApart report.classes ∧ (report.files.map Artifact.path).Nodup := by
  have hread : (Ontology.ofGraph "movies" none wrapperLikeGraph).outcome
      = (.ok wrapperLikeOntology, []) :=
    Ontology.ofGraph_of_shapes (by decide +kernel) (by decide +kernel) rfl rfl
  have hready : wrapperLikeOntology.isWalkable = true
      ∧ Emission.checkDslNames ⟨"movie_dsl", "movies", true, false, true⟩
        wrapperLikeOntology.resolve.1 = .ok ()
      ∧ Emission.IsWritten ⟨"movie_dsl", "movies", true, false, true⟩
        wrapperLikeOntology.resolve.1 := by
    rw [Ontology.resolve_eq_evaluate]
    decide +kernel
  have hnames : wrapperLikeOntology.resolve.1.map ClassModel.className
      = ["MovieWrapper", "Movie_2"] := by
    rw [Ontology.resolve_eq_evaluate]
    decide +kernel
  obtain ⟨report, written, hgen⟩ := generate_default_iff.2 hready
  refine ⟨hread, report, written, hgen, ?_, generated_names_apart hread hgen⟩
  obtain ⟨_, _, -, -, -, rfl, -⟩ := generate_ok_iff.1 hgen
  exact hnames

end

end ShapeForge
