import ShapeForge.Platform.Standard
import ShapeForge.Proofs.Declarations
import ShapeForge.Proofs.Extraction
import ShapeForge.Proofs.ValidationNames

/-!
# Imports within a package

The modules of a package import each other by name. Each is written on its own, so that a name is
there depends on the modules agreeing: on the names of classes, on the modules of the classes that
properties refer to, and on whether nodes are validated.

An import is resolved if the module is there and defines every name (`Emission.Import.Resolved`).
The modules of a package are found under their names (`Emission.Holds`), since no two files have
one path, and then the imports of each kind of module are resolved one by one.
-/

namespace ShapeForge

open Emission (Artifact Import SourceModule)

namespace Emission

/-- The names that a module defines at its top level. -/
def SourceModule.definedNames (m : SourceModule) : List String :=
  m.definitions.filterMap Definition.bound?

/-- The imports of a module, with those that only types need. -/
def SourceModule.allImports (m : SourceModule) : List Import := m.imports.flatten ++ m.deferred

/-- An import finds what it names. Modules outside the package are not looked into. -/
inductive Import.Resolved (module? : String → Option SourceModule) : Import → Prop
  | library {path : String} {names : List String} {stacked : Bool} :
    Resolved module? ⟨.library path, names, stacked⟩
  | sibling {moduleName : String} {source : SourceModule} {names : List String} {stacked : Bool}
    (hmodule : module? moduleName = some source)
    (hnames : ∀ name ∈ names, name ∈ source.definedNames) :
    Resolved module? ⟨.sibling moduleName, names, stacked⟩
  | package {names : List String} {stacked : Bool}
    (hmodules : ∀ name ∈ names, ∃ source, module? name = some source) :
    Resolved module? ⟨.package, names, stacked⟩

/-- The modules of a package by their names. -/
inductive PackageModule (options : Options) (classes : List ClassModel) :
    String → SourceModule → Prop
  | interface {c : ClassModel} (hc : c ∈ classes) :
    PackageModule options classes c.moduleName (interfaceModule options (moduleTable classes) c)
  | wrapper {c : ClassModel} (hc : c ∈ classes) :
    PackageModule options classes c.wrapperModule (wrapperSource options c)
  | validation : PackageModule options classes "validation" (validationModule options classes)
  | dsl : PackageModule options classes "dsl" (dslModule options classes)
  | index : PackageModule options classes "__init__" (indexModule options classes)

/-- The modules of a package are found under their names. -/
def Holds (module? : String → Option SourceModule) (options : Options)
    (classes : List ClassModel) : Prop :=
  ∀ name source, PackageModule options classes name source → module? name = some source

/-- A class of a package is known by its name and its module. -/
def Listed (classes : List ClassModel) (reference : String × String) : Prop :=
  ∃ d ∈ classes, d.className = reference.1 ∧ d.moduleName = reference.2

variable {module? : String → Option SourceModule} {options : Options} {classes : List ClassModel}
  {c : ClassModel}

/-! ## What modules define -/

theorem rulesConstant_mem_definedNames (hc : c ∈ classes) :
    c.rulesConstant ∈ (validationModule options classes).definedNames := by
  refine List.mem_filterMap.2 ⟨.assignment (rulesAssignment c), ?_, rfl⟩
  exact List.mem_append_left _ (List.mem_map_of_mem hc)

theorem routines_mem_definedNames (henabled : options.validationEnabled = true)
    (hc : c ∈ classes) :
    c.violationsFunction ∈ (validationModule options classes).definedNames
      ∧ c.validateFunction ∈ (validationModule options classes).definedNames := by
  have hroutine {f : Function} (hf : f ∈ [violationsRoutine options c, validateRoutine options c]) :
      f.name ∈ (validationModule options classes).definedNames := by
    refine List.mem_filterMap.2 ⟨.function f, List.mem_append_right _ ?_, rfl⟩
    rw [if_pos henabled]
    exact List.mem_flatMap.2 ⟨c, hc, by simpa using hf⟩
  exact ⟨hroutine List.mem_cons_self, hroutine (List.mem_cons_of_mem _ List.mem_cons_self)⟩

theorem definedNames_dslModule :
    (dslModule options classes).definedNames = dslNames options classes := by
  simp only [SourceModule.definedNames, dslModule, List.filterMap_append, List.filterMap_map]
  simp [Function.comp_def, Definition.bound?, builder, scope, entry, dslNames]

/-! ## References between classes -/

theorem listed_of_mem (hc : c ∈ classes) : Listed classes (c.className, c.moduleName) :=
  ⟨c, hc, rfl, rfl⟩

theorem listed_of_mem_emittedSupers {reference : String × String}
    (h : reference ∈ emittedSupers (moduleTable classes) c) : Listed classes reference := by
  obtain ⟨name, -, hname⟩ := List.mem_filterMap.1 h
  obtain ⟨m, hm, rfl⟩ := Option.map_eq_some_iff.1 hname
  rw [moduleTable, Assoc.get?_foldl_put] at hm
  obtain ⟨d, hd, rfl⟩ := Option.map_eq_some_iff.1 hm
  exact ⟨d, List.mem_reverse.1 (List.mem_of_find?_eq_some hd), by simpa using List.find?_some hd,
    rfl⟩

theorem exists_property_of_mem_referenced : ∀ reference ∈ c.referenced,
    ∃ p ∈ c.properties, p.type = .object reference.1 reference.2 := by
  unfold ClassModel.referenced
  -- What is collected comes from the properties read so far.
  refine List.foldlRecOn
    (motive := fun (seen : List (String × String)) =>
      ∀ reference ∈ seen, ∃ p ∈ c.properties, p.type = .object reference.1 reference.2)
    c.properties _ (by simp) fun seen ih p hp => ?_
  split
  · rename_i className moduleName htype
    split_ifs
    · exact ih
    · intro reference hreference
      rcases List.mem_append.1 hreference with hold | hnew
      · exact ih reference hold
      · rw [List.mem_singleton] at hnew
        exact ⟨p, hp, by rw [htype, hnew]⟩
  · exact ih

/-! ## The imports of each module -/

theorem SourceModule.forall_allImports {m : SourceModule} {P : Import → Prop} :
    (∀ i ∈ m.allImports, P i) ↔
      (∀ group ∈ m.imports, ∀ i ∈ group, P i) ∧ ∀ i ∈ m.deferred, P i := by
  rw [allImports, List.forall_mem_append, List.forall_mem_flatten]

theorem forall_mem_optional {α : Type} {P : α → Prop} {b : Prop} [Decidable b] {l : List α}
    (h : b → ∀ a ∈ l, P a) : ∀ a ∈ if b then l else [], P a := by
  split_ifs with hb
  · exact h hb
  · simp

theorem validationModule_resolved :
    ∀ i ∈ (validationModule options classes).allImports, i.Resolved module? := by
  rw [SourceModule.forall_allImports]
  simp only [validationModule, List.forall_mem_cons, List.mem_nil_iff, false_implies,
    implies_true, and_true]
  exact .library

namespace Holds

variable (h : Holds module? options classes)

include h

/-- The interface of a class can be imported by the name and the module of the class. -/
theorem interface_resolved {reference : String × String} (hlisted : Listed classes reference) :
    Import.Resolved module? ⟨.sibling reference.2, [reference.1], false⟩ := by
  obtain ⟨d, hd, hname, hmodule⟩ := hlisted
  refine .sibling (hmodule ▸ h _ _ (.interface hd)) ?_
  rw [List.forall_mem_singleton, ← hname]
  exact List.mem_cons_self

theorem interfaceModule_resolved
    (hreferenced : ∀ reference ∈ c.referenced, Listed classes reference) :
    ∀ i ∈ (interfaceModule options (moduleTable classes) c).allImports, i.Resolved module? := by
  rw [SourceModule.forall_allImports]
  simp only [interfaceModule, List.forall_mem_append, List.forall_mem_cons, List.forall_mem_map,
    List.mem_nil_iff, false_implies, implies_true, and_true]
  refine ⟨⟨⟨⟨.library, .library⟩, forall_mem_optional fun _ => ?_⟩, ?_⟩, ?_⟩
  · simpa using .library
  · split_ifs
    · simpa using .library
    · rw [List.forall_mem_map]
      exact fun reference href => h.interface_resolved (listed_of_mem_emittedSupers href)
  · exact fun reference href => h.interface_resolved (hreferenced _ (List.mem_filter.1 href).1)

theorem wrapperSource_resolved (hc : c ∈ classes)
    (hreferenced : ∀ reference ∈ c.referenced, Listed classes reference) :
    ∀ i ∈ (wrapperSource options c).allImports, i.Resolved module? := by
  rw [SourceModule.forall_allImports]
  simp only [wrapperSource, List.forall_mem_append, List.forall_mem_cons, List.forall_mem_map,
    List.mem_nil_iff, false_implies, implies_true, and_true]
  refine ⟨⟨.library, .library⟩, ⟨.library, forall_mem_optional fun _ => ?_⟩,
    ⟨⟨.library, ?_⟩, ?_⟩, forall_mem_optional fun henabled => ?_⟩
  · simpa using .library
  · exact h.interface_resolved (listed_of_mem hc)
  · exact fun reference href => h.interface_resolved (hreferenced _ (List.mem_filter.1 href).1)
  · rw [List.forall_mem_singleton]
    refine .sibling (h _ _ .validation) ?_
    rw [List.forall_mem_singleton]
    exact (routines_mem_definedNames henabled hc).1

theorem dslModule_resolved :
    ∀ i ∈ (dslModule options classes).allImports, i.Resolved module? := by
  have hnames : ∀ name ∈ validationNames options classes,
      name ∈ (validationModule options classes).definedNames := by
    rw [validationNames, List.forall_mem_append, List.forall_mem_map]
    refine ⟨fun c hc => rulesConstant_mem_definedNames hc, forall_mem_optional fun henabled => ?_⟩
    rw [List.forall_mem_map]
    exact fun c hc => (routines_mem_definedNames henabled hc).2
  rw [SourceModule.forall_allImports]
  simp only [dslModule, List.forall_mem_cons, List.mem_nil_iff, false_implies, implies_true,
    and_true]
  refine ⟨.library, ⟨.library, .library⟩, .library, ?_⟩
  split_ifs
  · simp
  · rw [List.forall_mem_singleton]
    exact .sibling (h _ _ .validation) hnames

theorem indexModule_resolved :
    ∀ i ∈ (indexModule options classes).allImports, i.Resolved module? := by
  rw [SourceModule.forall_allImports]
  simp only [indexModule, List.forall_mem_append, List.forall_mem_cons, List.forall_mem_map,
    List.mem_nil_iff, false_implies, implies_true, and_true]
  refine ⟨.library, ⟨⟨fun c hc => ?_, fun c hc => ?_⟩, fun c hc => ?_⟩, ?_⟩
  · exact h.interface_resolved (listed_of_mem hc)
  · refine .sibling (h _ _ (.wrapper hc)) ?_
    rw [List.forall_mem_singleton]
    exact List.mem_cons_self
  · refine .package ?_
    rw [List.forall_mem_singleton]
    exact ⟨_, h _ _ (.wrapper hc)⟩
  · refine .sibling (h _ _ .dsl) fun name hname => ?_
    rwa [definedNames_dslModule]

/-- The imports of every module of a package are resolved, if properties refer to classes of the
package. -/
theorem imports_resolved_of_packageModule
    (hreferenced : ∀ c ∈ classes, ∀ reference ∈ c.referenced, Listed classes reference)
    {name : String} {source : SourceModule} (hmodule : PackageModule options classes name source) :
    ∀ i ∈ source.allImports, i.Resolved module? := by
  cases hmodule with
  | interface hc => exact h.interfaceModule_resolved (hreferenced _ hc)
  | wrapper hc => exact h.wrapperSource_resolved hc (hreferenced _ hc)
  | validation => exact validationModule_resolved
  | dsl => exact h.dslModule_resolved
  | index => exact h.indexModule_resolved

end Holds

end Emission

/-! ## The files of a run -/

section Files

variable {options : Options} {classes : List ClassModel} {files : List Artifact}

/-- A generator only writes modules of the package. -/
theorem exists_packageModule_of_artifact (generator : Emission.Generator) :
    ∀ file ∈ generator.artifacts options classes, ∃ name,
      file.path = options.modulePath name
        ∧ Emission.PackageModule options classes name file.source := by
  cases generator with
  | interfaces => exact List.forall_mem_map.2 fun c hc => ⟨_, rfl, .interface hc⟩
  | wrappers => exact List.forall_mem_map.2 fun c hc => ⟨_, rfl, .wrapper hc⟩
  | validation => exact List.forall_mem_singleton.2 ⟨_, rfl, .validation⟩
  | instanceDsl => exact List.forall_mem_singleton.2 ⟨_, rfl, .dsl⟩
  | package => exact List.forall_mem_singleton.2 ⟨_, rfl, .index⟩

theorem exists_packageModule {generators : List Emission.Generator}
    (hemit : Emission.emit options classes generators = .ok files) {file : Artifact}
    (hfile : file ∈ files) : ∃ name, file.path = options.modulePath name
      ∧ Emission.PackageModule options classes name file.source := by
  obtain ⟨-, -, rfl⟩ := Emission.emit_ok_iff.1 hemit
  obtain ⟨generator, -, hfile⟩ := List.mem_flatMap.1 hfile
  exact exists_packageModule_of_artifact generator file hfile

variable (hemit : Emission.emit options classes Emission.Generator.all = .ok files)

include hemit

theorem exists_file_of_packageModule {name : String} {source : SourceModule}
    (hmodule : Emission.PackageModule options classes name source) :
    ∃ file ∈ files, file.path = options.modulePath name ∧ file.source = source := by
  obtain ⟨-, -, rfl⟩ := emit_all_ok_iff.1 hemit
  simp only [List.mem_append]
  cases hmodule with
  | interface hc => exact ⟨_, .inl (.inl (.inl (.inl (List.mem_map_of_mem hc)))), rfl, rfl⟩
  | wrapper hc => exact ⟨_, .inl (.inl (.inl (.inr (List.mem_map_of_mem hc)))), rfl, rfl⟩
  | validation => exact ⟨_, .inl (.inl (.inr List.mem_cons_self)), rfl, rfl⟩
  | dsl => exact ⟨_, .inl (.inr List.mem_cons_self), rfl, rfl⟩
  | index => exact ⟨_, .inr List.mem_cons_self, rfl, rfl⟩

end Files

/-- The module that a report holds under a name. -/
def Report.module? (r : Report) (options : Options) (name : String) : Option SourceModule :=
  (r.file? (options.modulePath name)).map Artifact.source

theorem Report.holds_of_emit {r : Report} {options : Options} {classes : List ClassModel}
    (hapart : NamesApart classes)
    (hemit : Emission.emit options classes Emission.Generator.all = .ok r.files) :
    Emission.Holds (r.module? options) options classes := by
  have hpaths : (r.files.map Artifact.path).Nodup := by
    rw [emit_all_paths hemit]
    exact hapart.packageModules_nodup.map (modulePath_injective options)
  intro name source hmodule
  obtain ⟨file, hfile, hpath, rfl⟩ := exists_file_of_packageModule hemit hmodule
  rw [module?, file?, ← hpath, find_of_nodup_map hpaths hfile]
  rfl

/-- In a package that is emitted, every module finds in the package what it imports from there. An
object property is typed by the emitted class that its declaration asks for. -/
theorem imports_resolved [Platform] {source : String} {context : Option Json} {g : Rdf.Graph}
    {o : Ontology} {options : Options} {now : String} {report : Report} {read written : List Notice}
    (hread : (Ontology.ofGraph source context g).outcome = (.ok o, read))
    (hrun : (generate o options none now).outcome = (.ok report, written)) :
    (∀ file ∈ report.files, ∀ i ∈ file.source.allImports, i.Resolved (report.module? options))
      ∧ ∀ c ∈ report.classes, ∀ p ∈ c.properties, ∀ className moduleName,
        p.type = .object className moduleName →
          ∃ e, (e = c ∨ Ancestor report.classes c e)
            ∧ ∃ d, o.firstDeclared? e.iri p.iri = some d
              ∧ ∃ t ∈ report.classes, d.targetClass = some t.iri ∧ t.className = className
                ∧ t.moduleName = moduleName := by
  have hclasses : (o.classes.map DeclaredClass.iri).Nodup := by
    obtain ⟨shapes, terms, -, -, rfl⟩ := Ontology.ofGraph_ok_iff.1 hread
    exact classesOf_iris_nodup g shapes
  obtain ⟨generators, files, -, hgenerators, hemit, rfl, -⟩ := generate_ok_iff.1 hrun
  cases hgenerators
  refine ⟨fun file hfile => ?_, fun c hc p hp _ _ htype =>
    Ontology.exists_class_of_object hc hp htype⟩
  have hreferenced : ∀ c ∈ o.resolve.1, ∀ reference ∈ c.referenced,
      Emission.Listed o.resolve.1 reference := by
    intro c hc reference href
    obtain ⟨p, hp, htype⟩ := Emission.exists_property_of_mem_referenced reference href
    obtain ⟨-, -, -, -, t, ht, -, hnames⟩ := Ontology.exists_class_of_object hc hp htype
    exact ⟨t, ht, hnames⟩
  obtain ⟨name, -, hmodule⟩ := exists_packageModule hemit hfile
  exact (Report.holds_of_emit (Ontology.namesApart_resolve hclasses)
    hemit).imports_resolved_of_packageModule hreferenced hmodule

/-- Two classes, of which one has friends of the other. -/
def friendGraph : Rdf.Graph where
  triples :=
    [⟨.iri "ps", .iri Rdf.rdfType, .iri (Rdf.sh "NodeShape")⟩,
     ⟨.iri "ps", .iri (Rdf.sh "targetClass"), .iri "http://ex.org/P"⟩,
     ⟨.iri "ps", .iri (Rdf.sh "property"), .iri "friend"⟩,
     ⟨.iri "friend", .iri (Rdf.sh "path"), .iri "http://ex.org/friend"⟩,
     ⟨.iri "friend", .iri (Rdf.sh "class"), .iri "http://ex.org/Q"⟩,
     ⟨.iri "qs", .iri Rdf.rdfType, .iri (Rdf.sh "NodeShape")⟩,
     ⟨.iri "qs", .iri (Rdf.sh "targetClass"), .iri "http://ex.org/Q"⟩]

def friendOntology : Ontology where
  shapes :=
    [⟨"ps", "http://ex.org/P",
      [{ path := "http://ex.org/friend", name := "friend"
         targetClass := some "http://ex.org/Q" }]⟩,
     ⟨"qs", "http://ex.org/Q", []⟩]
  context := {}
  classes := [⟨"http://ex.org/P", "P", []⟩, ⟨"http://ex.org/Q", "Q", []⟩]
  source := "shapes"

section

attribute [local instance] Platform.standard

/-- The wrapper of the one imports the interface of the other, and finds it. -/
theorem friend_imports_resolved : ∃ report written,
    (Ontology.ofGraph "shapes" none friendGraph).outcome = (.ok friendOntology, [])
      ∧ (generate friendOntology ⟨"d", "p", true, false, true⟩ none "").outcome
        = (.ok report, written)
      ∧ (∃ file ∈ report.files, ⟨.sibling "q", ["Q"], false⟩ ∈ file.source.allImports)
      ∧ Import.Resolved (report.module? ⟨"d", "p", true, false, true⟩)
        ⟨.sibling "q", ["Q"], false⟩ := by
  have hread : (Ontology.ofGraph "shapes" none friendGraph).outcome = (.ok friendOntology, []) :=
    Ontology.ofGraph_of_shapes (by decide +kernel) (by decide +kernel) rfl rfl
  have hready : friendOntology.isWalkable = true
      ∧ Emission.checkDslNames ⟨"d", "p", true, false, true⟩ friendOntology.evaluate = .ok ()
      ∧ Emission.IsWritten ⟨"d", "p", true, false, true⟩ friendOntology.evaluate := by
    decide +kernel
  have himport : ∃ c ∈ friendOntology.evaluate, ⟨.sibling "q", ["Q"], false⟩
      ∈ (Emission.wrapperSource ⟨"d", "p", true, false, true⟩ c).allImports := by
    decide +kernel
  rw [← Ontology.resolve_eq_evaluate] at hready himport
  obtain ⟨c, hc, hmem⟩ := himport
  obtain ⟨report, written, hrun⟩ := generate_default_iff.2 hready
  obtain ⟨generators, files, -, hgenerators, hemit, hreport, -⟩ := generate_ok_iff.1 hrun
  cases hgenerators
  obtain ⟨file, hfile, -, hsource⟩ := exists_file_of_packageModule hemit (.wrapper hc)
  rw [← hsource] at hmem
  have hfile : file ∈ report.files := hreport ▸ hfile
  exact ⟨report, written, hread, hrun, ⟨file, hfile, hmem⟩,
    (imports_resolved hread hrun).1 file hfile _ hmem⟩

end

end ShapeForge
