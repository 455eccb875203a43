import ShapeForge.Package.Routine
import ShapeForge.Platform.Standard
import ShapeForge.Proofs.NamePools

/-!
# Names of the validation module

The validation module binds what it imports, a constant for the rules of every class, and two
routines for every class. The constants are in capital letters and stay apart. A routine can take
the name of the imported one, and the routines of two classes can take each other's names: this
happens exactly for the modules that `ClashingModules` lists (`Package.routinesApart_iff`).

Without a clash every routine is the one of its own class, and listing violations comes down to
the rules of the class (`Package.call_violations`).
-/

namespace ShapeForge

namespace Emission

/-- The name that a definition binds; a call binds none. -/
def Definition.bound? : Definition → Option String
  | .cls c => some c.name
  | .function f => some f.name
  | .assignment a => some a.name
  | .call _ => none

/-- The names that a module binds when it runs, in order; every module imports `annotations`. -/
def SourceModule.boundNames (m : SourceModule) : List String :=
  "annotations" :: m.imports.flatten.flatMap Import.names
    ++ m.definitions.filterMap Definition.bound?

/-- The names that the validation module binds whatever the classes. -/
def validationImports : List String :=
  ["annotations", "PropertyRule", "ValidationError", "Violation", "shape_violations"]

theorem boundNames_validationModule {options : Options} (h : options.validationEnabled = true)
    (classes : List ClassModel) :
    (validationModule options classes).boundNames
      = validationImports ++ classes.map ClassModel.rulesConstant
        ++ (⟨options, classes⟩ : Package).routines.map (·.1) := by
  simp only [validationModule, SourceModule.boundNames, h, if_true, validationImports,
    Package.routines, List.filterMap_append, List.filterMap_map, List.filterMap_flatMap,
    List.map_flatMap]
  simp [Function.comp_def, Definition.bound?, rulesAssignment, violationsRoutine, validateRoutine]

end Emission

/-- The modules whose routines take one name. -/
inductive ClashingModules (modules : List String) : Prop
  /-- The listing routine hides the imported one. -/
  | shared (h : "shape" ∈ modules)
  /-- The listing routine of one class is the requiring routine of the other. -/
  | crossed {core : String} (hc : "validate_" ++ core ∈ modules)
      (hd : core ++ "_violations" ∈ modules)
  | overlapping (hc : "validate" ∈ modules) (hd : "violations" ∈ modules)

/-! ## When two names are one -/

/-- A text that ends with a separator and has no other is cut there only. -/
theorem append_cons_eq_concat {sep : Char} {word start rest : List Char} (hw : sep ∉ word)
    (h : start ++ sep :: rest = word ++ [sep]) : start = word ∧ rest = [] := by
  rcases List.append_eq_append_iff.1 h with ⟨middle, hword, hrest⟩ | ⟨middle, hstart, hsep⟩
  · rcases middle with _ | ⟨c, middle⟩
    · simp only [List.nil_append, List.cons.injEq, true_and] at hrest
      exact ⟨by simpa using hword.symm, hrest⟩
    · rw [List.cons_append, List.cons.injEq] at hrest
      exact absurd (by simp [hword, hrest.1]) hw
  · rcases middle with _ | ⟨c, middle⟩
    · simp only [List.nil_append, List.cons.injEq, true_and] at hsep
      exact ⟨by simpa using hstart, hsep.symm⟩
    · simp at hsep

/-- A module whose listing routine has the name of a requiring routine either holds the whole of
the other's start, or meets it in one underscore. -/
theorem violations_eq_validate_iff {m n : String} :
    m ++ "_violations" = "validate_" ++ n ↔
      (∃ core, m = "validate_" ++ core ∧ n = core ++ "_violations")
        ∨ (m = "validate" ∧ n = "violations") := by
  constructor
  · intro h
    have hl := congrArg String.toList h
    rw [String.toList_append, String.toList_append] at hl
    rcases List.append_eq_append_iff.1 hl with ⟨middle, hm, hn⟩ | ⟨core, hm, hn⟩
    · rcases middle with _ | ⟨c, middle⟩
      · refine .inl ⟨"", ?_, ?_⟩ <;> rw [← String.toList_inj]
        · simpa using hm.symm
        · simpa using hn.symm
      · have hv : "_violations".toList = '_' :: "violations".toList := by decide
        rw [hv, List.cons_append, List.cons.injEq] at hn
        obtain ⟨rfl, hn⟩ := hn
        have hw : "validate_".toList = "validate".toList ++ ['_'] := by decide
        obtain ⟨hstart, rfl⟩ := append_cons_eq_concat (by decide) (hm.symm.trans hw)
        exact .inr ⟨String.toList_inj.1 hstart, String.toList_inj.1 hn.symm⟩
    · refine .inl ⟨String.ofList core, ?_, ?_⟩ <;> rw [← String.toList_inj]
      · simpa using hm
      · simpa using hn
  · rintro (⟨core, rfl, rfl⟩ | ⟨rfl, rfl⟩)
    · exact String.append_assoc ..
    · decide

theorem validate_ne_shared (m : String) : "validate_" ++ m ≠ Package.sharedRoutine := by
  intro h
  have hl := congrArg (fun s => s.toList.head?) h
  simp [Package.sharedRoutine] at hl

theorem violations_eq_shared_iff {m : String} :
    m ++ "_violations" = Package.sharedRoutine ↔ m = "shape" := by
  have hs : Package.sharedRoutine = "shape" ++ "_violations" := by decide
  rw [hs, String.append_left_inj]

/-! ## Names of the routines -/

namespace Package

variable {p : Package}

theorem routineNames_perm (p : Package) :
    (p.routines.map (·.1)).Perm
      (p.classes.map ClassModel.violationsFunction
        ++ p.classes.map ClassModel.validateFunction) := by
  have hn : p.routines.map (·.1)
      = p.classes.flatMap fun c => [c.violationsFunction, c.validateFunction] := by
    simp [routines, List.map_flatMap]
  rw [hn]
  exact flatMap_pair_perm _ _ p.classes

theorem mem_routineNames {name : String} :
    name ∈ p.routines.map (·.1) ↔
      ∃ c ∈ p.classes, c.violationsFunction = name ∨ c.validateFunction = name := by
  rw [p.routineNames_perm.mem_iff, List.mem_append, List.mem_map, List.mem_map]
  constructor
  · rintro (⟨c, hc, h⟩ | ⟨c, hc, h⟩)
    · exact ⟨c, hc, .inl h⟩
    · exact ⟨c, hc, .inr h⟩
  · rintro ⟨c, hc, h | h⟩
    · exact .inl ⟨c, hc, h⟩
    · exact .inr ⟨c, hc, h⟩

theorem shared_mem_routineNames :
    sharedRoutine ∈ p.routines.map (·.1) ↔ "shape" ∈ p.classes.map ClassModel.moduleName := by
  rw [mem_routineNames, List.mem_map]
  refine exists_congr fun c => and_congr_right fun _ => ?_
  rw [ClassModel.violationsFunction, ClassModel.validateFunction, violations_eq_shared_iff]
  exact or_iff_left (validate_ne_shared c.moduleName)

/-- The routines of a class have names with an underscore, as only one of the imports has. -/
theorem underscore_mem_of_mem_routineNames {name : String}
    (hn : name ∈ p.routines.map (·.1)) :
    '_' ∈ name.toList ∧ name.toList.any Char.isLower = true := by
  obtain ⟨c, -, rfl | rfl⟩ := mem_routineNames.1 hn
  · have hl : "_violations".toList.any Char.isLower = true := by decide
    rw [ClassModel.violationsFunction, String.toList_append, List.any_append, hl]
    exact ⟨List.mem_append_right _ (by decide), Bool.or_true _⟩
  · have hl : "validate_".toList.any Char.isLower = true := by decide
    rw [ClassModel.validateFunction, String.toList_append, List.any_append, hl]
    exact ⟨List.mem_append_left _ (by decide), Bool.true_or _⟩

theorem mem_imports_of_mem_routineNames {name : String}
    (hn : name ∈ p.routines.map (·.1)) (hi : name ∈ Emission.validationImports) :
    name = sharedRoutine := by
  have hu : ∀ text ∈ Emission.validationImports, '_' ∈ text.toList → text = sharedRoutine := by
    decide
  exact hu name hi (underscore_mem_of_mem_routineNames hn).1

/-- Routines have names of their own, and none hides the imported one. -/
def RoutinesApart (p : Package) : Prop :=
  sharedRoutine ∉ p.routines.map (·.1)
    ∧ ∀ c ∈ p.classes, ∀ d ∈ p.classes, c.violationsFunction ≠ d.validateFunction

theorem routinesApart_iff :
    p.RoutinesApart ↔ ¬ ClashingModules (p.classes.map ClassModel.moduleName) := by
  rw [RoutinesApart, shared_mem_routineNames]
  constructor
  · rintro ⟨hs, hne⟩ hclash
    have meet {m n : String} (hm : m ∈ p.classes.map ClassModel.moduleName)
        (hn : n ∈ p.classes.map ClassModel.moduleName) : m ++ "_violations" ≠ "validate_" ++ n := by
      obtain ⟨c, hc, rfl⟩ := List.mem_map.1 hm
      obtain ⟨d, hd, rfl⟩ := List.mem_map.1 hn
      exact hne c hc d hd
    rcases hclash with h | ⟨hc, hd⟩ | ⟨hc, hd⟩
    · exact hs h
    · exact meet hc hd (violations_eq_validate_iff.2 (.inl ⟨_, rfl, rfl⟩))
    · exact meet hc hd (violations_eq_validate_iff.2 (.inr ⟨rfl, rfl⟩))
  · intro hclash
    refine ⟨fun h => hclash (.shared h), fun c hc d hd h => hclash ?_⟩
    have hcm := List.mem_map_of_mem (f := ClassModel.moduleName) hc
    have hdm := List.mem_map_of_mem (f := ClassModel.moduleName) hd
    rcases violations_eq_validate_iff.1 h with ⟨core, hm, hn⟩ | ⟨hm, hn⟩
    · exact .crossed (hm ▸ hcm) (hn ▸ hdm)
    · exact .overlapping (hm ▸ hcm) (hn ▸ hdm)

/-! ## What the names denote -/

/-- Every routine that is called by name is the one of its class, and the imported one is there. -/
def RoutinesOwn (p : Package) : Prop :=
  p.routine? sharedRoutine = none
    ∧ ∀ c ∈ p.classes, p.routine? c.violationsFunction = some (.list c)
      ∧ p.routine? c.validateFunction = some (.require c)

theorem routine?_shared :
    p.routine? sharedRoutine = none ↔ sharedRoutine ∉ p.routines.map (·.1) := by
  rw [routine?, Assoc.get?_eq_none_iff, List.map_reverse, List.mem_reverse]

theorem routine?_of_mem (h : (p.routines.map (·.1)).Nodup) {name : String} {r : Routine}
    (hr : (name, r) ∈ p.routines) : p.routine? name = some r := by
  refine Assoc.get?_of_mem ?_ (List.mem_reverse.2 hr)
  rw [List.pairwise_reverse]
  exact (List.pairwise_map.1 h).imp fun hne => hne.symm

theorem call_violations [Platform] (h : p.RoutinesOwn) {c : ClassModel} (hc : c ∈ p.classes)
    (g : Rdf.Graph) (node : Rdf.Term) :
    p.call g node c.violationsFunction
      = ((shapeViolations c.rules g node).map some).mapError .check := by
  simp [call, callWith, (h.2 c hc).1, h.1]

end Package

/-! ## Names of a package whose names are apart -/

theorem Naming.toLower_toUpper_of_isSnake {c : Char} (h : isSnake c = true) :
    c.toUpper.toLower = c := by
  have hu : ¬ c.isUpper = true := by
    rw [isUpper_iff]
    simp only [isSnake, Bool.or_eq_true, isLower_iff, isDigit_iff, beq_iff_eq] at h
    rcases h with (h | h) | rfl
    · omega
    · omega
    · decide
  rw [Char.toLower_toUpper_eq_toLower, Char.toLower_eq_of_not_isUpper hu]

theorem Naming.map_toUpper_moduleNameFor (name : String) :
    ((moduleNameFor name).toList.map Char.toUpper).map Char.toLower
      = (moduleNameFor name).toList := by
  rw [List.map_map]
  conv_rhs => rw [← List.map_id (moduleNameFor name).toList]
  refine List.map_congr_left fun c hc => ?_
  exact toLower_toUpper_of_isSnake (isSnake_of_mem_moduleNameFor hc)

theorem ClassModel.rulesConstant_no_lower (c : ClassModel) :
    c.rulesConstant.toList.any Char.isLower = false := by
  have hr : "_RULES".toList.any Char.isLower = false := by decide
  rw [rulesConstant, String.toList_append, String.toList_ofList, List.any_append, hr,
    Bool.or_false, List.any_map, List.any_eq_false]
  intro ch _
  simp

namespace NamesApart

variable {classes : List ClassModel}

/-- Names made from a module are apart if the module can be read off them. -/
theorem map_nodup (h : NamesApart classes) {f : ClassModel → String}
    (hf : ∀ c ∈ classes, ∀ d ∈ classes, f c = f d → c.moduleName = d.moduleName) :
    (classes.map f).Nodup := by
  have hm : (classes.map ClassModel.moduleName).Nodup :=
    ((modulePool_perm classes).nodup h.modules_nodup).of_append_left
  refine List.pairwise_map.2 ((List.pairwise_map.1 hm).imp_of_mem ?_)
  intro c d hc hd hne he
  exact hne (hf c hc d hd he)

theorem rulesConstants_nodup (h : NamesApart classes) :
    (classes.map ClassModel.rulesConstant).Nodup := by
  refine h.map_nodup fun c hc d hd he => ?_
  rw [ClassModel.rulesConstant, ClassModel.rulesConstant, String.append_left_inj,
    String.ofList_inj] at he
  have hl := congrArg (List.map Char.toLower) he
  rw [h.moduleName c hc, h.moduleName d hd, Naming.map_toUpper_moduleNameFor,
    Naming.map_toUpper_moduleNameFor, String.toList_inj] at hl
  rw [h.moduleName c hc, h.moduleName d hd, hl]

theorem routineNames_nodup_iff {p : Package} (h : NamesApart p.classes) :
    (p.routines.map (·.1)).Nodup ↔
      ∀ c ∈ p.classes, ∀ d ∈ p.classes, c.violationsFunction ≠ d.validateFunction := by
  have hv : (p.classes.map ClassModel.violationsFunction).Nodup :=
    h.map_nodup fun c _ d _ he => (String.append_left_inj _).1 he
  have hw : (p.classes.map ClassModel.validateFunction).Nodup :=
    h.map_nodup fun c _ d _ he => (String.append_right_inj _).1 he
  rw [p.routineNames_perm.nodup_iff, List.nodup_append]
  simp [hv, hw]

/-- The names that the validation module binds are distinct exactly if those of the routines
are and none of them is the imported routine. -/
theorem boundNames_nodup_iff {options : Options} (h : NamesApart classes)
    (he : options.validationEnabled = true) :
    (Emission.validationModule options classes).boundNames.Nodup ↔
      (⟨options, classes⟩ : Package).RoutinesApart := by
  set p : Package := ⟨options, classes⟩
  rw [Emission.boundNames_validationModule he, Package.RoutinesApart,
    ← routineNames_nodup_iff (p := p) h]
  have hlower : ∀ name ∈ Emission.validationImports, name.toList.any Char.isLower = true := by
    decide
  have hconst : ∀ name ∈ classes.map ClassModel.rulesConstant,
      ¬ name.toList.any Char.isLower = true := by
    intro name hn
    obtain ⟨c, -, rfl⟩ := List.mem_map.1 hn
    rw [c.rulesConstant_no_lower]
    exact Bool.false_ne_true
  constructor
  · intro hnodup
    rw [List.nodup_append', List.nodup_append'] at hnodup
    obtain ⟨-, hr, hd⟩ := hnodup
    exact ⟨fun hs => hd (List.mem_append_left _ (by decide)) hs, hr⟩
  · rintro ⟨hs, hr⟩
    rw [List.nodup_append', List.nodup_append']
    refine ⟨⟨by decide, h.rulesConstants_nodup, fun name hi hc => ?_⟩, hr, fun name hic hn => ?_⟩
    · exact hconst name hc (hlower name hi)
    · rcases List.mem_append.1 hic with hi | hc
      · exact hs (Package.mem_imports_of_mem_routineNames hn hi ▸ hn)
      · exact hconst name hc (Package.underscore_mem_of_mem_routineNames hn).2

theorem routinesOwn_iff {p : Package} (h : NamesApart p.classes) :
    p.RoutinesOwn ↔ p.RoutinesApart := by
  rw [Package.RoutinesOwn, Package.RoutinesApart, Package.routine?_shared]
  refine and_congr_right fun _ => ⟨fun hown c hc d hd he => ?_, fun hne c hc => ?_⟩
  · have hlist := (hown c hc).1
    rw [he, (hown d hd).2] at hlist
    cases hlist
  · have hnodup := (routineNames_nodup_iff h).2 hne
    have mem (r : String × Routine)
        (hr : r ∈ [(c.violationsFunction, Routine.list c), (c.validateFunction, .require c)]) :
        r ∈ p.routines := List.mem_flatMap.2 ⟨c, hc, hr⟩
    exact ⟨Package.routine?_of_mem hnodup (mem _ (by simp)),
      Package.routine?_of_mem hnodup (mem _ (by simp))⟩

end NamesApart

/-- In a package that validates, the names of the validation module are distinct, and the routines
are those of their classes, exactly if no two modules clash. Then listing violations comes down to
the rules of the class. -/
theorem validation_names_apart_iff [Platform] {source : String} {context : Option Json}
    {g : Rdf.Graph} {o : Ontology} {notices : List Notice} {options : Options}
    (hread : (Ontology.ofGraph source context g).outcome = (.ok o, notices))
    (henabled : options.validationEnabled = true) :
    ((Emission.validationModule options o.resolve.1).boundNames.Nodup ↔
        ¬ ClashingModules (o.resolve.1.map ClassModel.moduleName))
      ∧ ((⟨options, o.resolve.1⟩ : Package).RoutinesOwn ↔
        ¬ ClashingModules (o.resolve.1.map ClassModel.moduleName))
      ∧ (¬ ClashingModules (o.resolve.1.map ClassModel.moduleName) →
        ∀ c ∈ o.resolve.1, ∀ (data : Rdf.Graph) (node : Rdf.Term),
          (⟨options, o.resolve.1⟩ : Package).call data node c.violationsFunction
            = ((shapeViolations c.rules data node).map some).mapError .check) := by
  have hclasses : (o.classes.map DeclaredClass.iri).Nodup := by
    obtain ⟨shapes, terms, -, -, rfl⟩ := Ontology.ofGraph_ok_iff.1 hread
    exact classesOf_iris_nodup g shapes
  have hapart := Ontology.namesApart_resolve hclasses
  have hown := (hapart.routinesOwn_iff (p := ⟨options, o.resolve.1⟩)).trans
    Package.routinesApart_iff
  refine ⟨(hapart.boundNames_nodup_iff henabled).trans Package.routinesApart_iff, hown, ?_⟩
  intro hclash c hc data node
  exact Package.call_violations (hown.2 hclash) hc data node

/-- One shape, for a class called `Shape`. -/
def shapeNamedGraph : Rdf.Graph where
  triples :=
    [⟨.iri "shape", .iri Rdf.rdfType, .iri (Rdf.sh "NodeShape")⟩,
     ⟨.iri "shape", .iri (Rdf.sh "targetClass"), .iri "http://ex.org/Shape"⟩]

def shapeNamedOntology : Ontology where
  shapes := [⟨"shape", "http://ex.org/Shape", []⟩]
  context := {}
  classes := [⟨"http://ex.org/Shape", "Shape", []⟩]
  source := "shapes"

section

attribute [local instance] Platform.standard

/-- A class called `Shape` hides the routine that lists violations. -/
theorem shapeNamed_hides_shared :
    (Ontology.ofGraph "shapes" none shapeNamedGraph).outcome = (.ok shapeNamedOntology, [])
      ∧ ¬ (Emission.validationModule ⟨"d", "p", true, false, true⟩
        shapeNamedOntology.resolve.1).boundNames.Nodup
      ∧ ¬ (⟨⟨"d", "p", true, false, true⟩,
        shapeNamedOntology.resolve.1⟩ : Package).RoutinesOwn := by
  have hread : (Ontology.ofGraph "shapes" none shapeNamedGraph).outcome
      = (.ok shapeNamedOntology, []) :=
    Ontology.ofGraph_of_shapes (by decide +kernel) (by decide +kernel) rfl rfl
  have hclash : ClashingModules (shapeNamedOntology.resolve.1.map ClassModel.moduleName) := by
    rw [Ontology.resolve_eq_evaluate]
    exact .shared (by decide +kernel)
  have henabled : (⟨"d", "p", true, false, true⟩ : Options).validationEnabled = true := rfl
  obtain ⟨hnames, hown, -⟩ := validation_names_apart_iff hread henabled
  exact ⟨hread, fun h => hnames.1 h hclash, fun h => hown.1 h hclash⟩

end

end ShapeForge
