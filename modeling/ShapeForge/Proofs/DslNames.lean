import ShapeForge.Proofs.ValidationNames

/-!
# Names of the DSL

The entry function and the scope class are defined in the module of the DSL and exported by the
index of the package. Both modules bind other names too, and the package holds its modules. A
package is emitted only if neither name is on a fixed list or made from a class
(`Emission.checkDslNames_ok_iff`).

What is refused in this way covers every other name of the module of the DSL
(`Emission.dslSurroundings_subset`) and every other name of the package but the two that the index
takes from the library (`Emission.packageSurroundings_subset`). A scope class never takes one of
these two, since its name ends in `Dsl`, but an entry function can.
-/

namespace ShapeForge

namespace Options

variable {document : Json} {o : Options} {name : String}

theorem isDslName_of_checkDslName {checked : String} (h : checkDslName name = .ok checked) :
    isDslName checked = true := by
  unfold checkDslName at h
  split_ifs at h with hname
  obtain rfl := Except.ok.inj h
  exact hname

theorem isDslName_of_ofJson (h : ofJson document = .ok o) : isDslName o.dslName = true := by
  have hfields {fields : List (String × Json)} (h : ofFields fields = .ok o) :
      isDslName o.dslName = true := by
    unfold ofFields at h
    dsimp only at h
    split at h
    · rename_i dsl package validation tags docs hdsl hpackage hvalidation htags hdocs
      obtain rfl := Except.ok.inj h
      rcases htext : Field.text "dsl_name" none fields with e | text
      · simp [htext, bind, Except.bind] at hdsl
      · rw [htext] at hdsl
        exact isDslName_of_checkDslName hdsl
    · cases h
  unfold ofJson at h
  split at h
  · exact hfields h
  · exact hfields h

theorem isDslName_head (h : isDslName name = true) :
    ∃ c rest, name.toList = c :: rest ∧ c.isAlpha = true := by
  unfold isDslName at h
  split at h
  · cases h
  · rename_i c rest hname
    simp only [Bool.and_eq_true] at h
    exact ⟨c, rest, hname, h.1.1⟩

theorem suffix_scopeClass (o : Options) : "Dsl".toList <:+ o.scopeClass.toList := by
  rw [scopeClass, String.toList_append]
  exact List.suffix_append _ _

end Options

namespace Emission

variable {options : Options} {classes : List ClassModel} {name : String}

theorem checkDslNames_ok_iff : checkDslNames options classes = .ok () ↔
    options.scopeClass ∉ dslTaken classes ∧ options.dslName ∉ dslTaken classes
      ∧ options.dslName ≠ options.scopeClass := by
  unfold checkDslNames
  dsimp only
  split_ifs with hscope hname
  · simp_all
  · simp only [Bool.or_eq_true, List.contains_iff_mem, beq_iff_eq] at hname
    simp only [false_iff, not_and, not_not]
    intro _ hfree
    exact hname.resolve_left hfree
  · simp only [Bool.or_eq_true, List.contains_iff_mem, beq_iff_eq, not_or] at hscope hname
    simp [hscope, hname]

/-! ## What stands beside the two names -/

/-- The other names of the module of the DSL. -/
def dslSurroundings (options : Options) (classes : List ClassModel) : List String :=
  ["annotations", "Callable", "Optional", "Graph", "Node", "InstanceBuilder", "InstanceScope",
      "RdfBacked"]
    ++ validationNames options classes ++ classes.map ClassModel.builderClass

theorem boundNames_dslModule : (dslModule options classes).boundNames
    = dslSurroundings options classes ++ [options.scopeClass, options.dslName] := by
  have himports : (if (validationNames options classes).isEmpty then []
      else [(⟨.sibling "validation", validationNames options classes, true⟩ : Import)]).flatMap
        Import.names = validationNames options classes := by
    split_ifs with hempty
    · rw [List.isEmpty_iff.1 hempty]
      rfl
    · simp
  simp only [SourceModule.boundNames, dslModule, dslSurroundings, List.flatten_cons,
    List.flatten_nil, List.append_nil, List.flatMap_append, List.flatMap_cons, himports,
    List.filterMap_append, List.filterMap_map]
  simp [Function.comp_def, Definition.bound?, builder, scope, entry]

/-- The names that the index takes from the library. -/
def registryNames : List String := ["WrapperRegistry", "default_registry"]

/-- The modules that a package holds besides its index, which comes last. -/
def submodules (classes : List ClassModel) : List String := (packageModules classes).dropLast

/-- The names of a package: what its index binds, and its modules. -/
def packageNames (options : Options) (classes : List ClassModel) : List String :=
  (indexModule options classes).boundNames ++ submodules classes

/-- The names of a package that are on the list or made from a class. -/
def packageSurroundings (classes : List ClassModel) : List String :=
  ["annotations", "register"] ++ classes.map ClassModel.className
    ++ classes.map ClassModel.wrapperClass ++ classes.map ClassModel.wrapperModule
    ++ classes.map ClassModel.builderClass ++ submodules classes

theorem packageNames_perm : (packageNames options classes).Perm
    (packageSurroundings classes ++ registryNames
      ++ [options.scopeClass, options.dslName, "__all__"]) := by
  have hbound : (indexModule options classes).boundNames = "annotations" :: registryNames
      ++ (classes.map ClassModel.className ++ classes.map ClassModel.wrapperClass
        ++ classes.map ClassModel.wrapperModule ++ classes.map ClassModel.builderClass)
      ++ [options.scopeClass, options.dslName, "register", "__all__"] := by
    simp only [SourceModule.boundNames, indexModule, registryNames, dslNames, registerFunction]
    simp [List.flatMap_map, ← List.map_eq_flatMap, Definition.bound?]
  rw [packageNames, hbound, packageSurroundings, List.perm_iff_count]
  intro x
  simp only [List.count_append, List.count_cons, List.count_nil]
  omega

theorem map_subset_dslTaken {f : ClassModel → String}
    (hf : ∀ c, f c ∈ [c.className, c.moduleName, c.builderClass, c.rulesConstant,
      c.validateFunction, c.wrapperClass, c.wrapperModule]) :
    classes.map f ⊆ dslTaken classes := by
  intro x hx
  obtain ⟨c, hc, rfl⟩ := List.mem_map.1 hx
  exact List.mem_append_left _ (List.mem_append_right _ (List.mem_flatMap.2 ⟨c, hc, hf c⟩))

theorem subset_dslTaken_of_subset_imports {names : List String} (h : names ⊆ dslImports) :
    names ⊆ dslTaken classes := fun _ hx =>
  List.mem_append_left _ (List.mem_append_left _ (h hx))

theorem dslSurroundings_subset : dslSurroundings options classes ⊆ dslTaken classes := by
  have hvalidate : (if options.validationEnabled then classes.map ClassModel.validateFunction
      else []) ⊆ dslTaken classes := by
    split_ifs
    · exact map_subset_dslTaken (by simp)
    · exact List.nil_subset _
  simp only [dslSurroundings, validationNames, List.append_subset]
  exact ⟨⟨subset_dslTaken_of_subset_imports (by decide), map_subset_dslTaken (by simp), hvalidate⟩,
    map_subset_dslTaken (by simp)⟩

theorem submodules_subset : submodules classes ⊆ dslTaken classes := by
  have heq : submodules classes = classes.map ClassModel.moduleName
      ++ classes.map ClassModel.wrapperModule ++ ["validation", "dsl"] := by
    simp [submodules, packageModules]
  rw [heq, List.append_subset, List.append_subset]
  refine ⟨⟨map_subset_dslTaken (by simp), map_subset_dslTaken (by simp)⟩, ?_⟩
  exact List.subset_append_of_subset_right _ (by decide)

theorem packageSurroundings_subset : packageSurroundings classes ⊆ dslTaken classes := by
  simp only [packageSurroundings, List.append_subset]
  exact ⟨⟨⟨⟨⟨subset_dslTaken_of_subset_imports (by decide), map_subset_dslTaken (by simp)⟩,
    map_subset_dslTaken (by simp)⟩, map_subset_dslTaken (by simp)⟩,
    map_subset_dslTaken (by simp)⟩, submodules_subset⟩

/-! ## How often the two names are bound -/

theorem count_boundNames_dslModule (hscope : options.scopeClass ∉ dslTaken classes)
    (hname : options.dslName ∉ dslTaken classes) (hne : options.dslName ≠ options.scopeClass) :
    (dslModule options classes).boundNames.count options.scopeClass = 1
      ∧ (dslModule options classes).boundNames.count options.dslName = 1 := by
  have hsurround {x : String} (hx : x ∉ dslTaken classes) :
      (dslSurroundings options classes).count x = 0 :=
    List.count_eq_zero_of_not_mem fun h => hx (dslSurroundings_subset h)
  rw [boundNames_dslModule, List.count_append, List.count_append, hsurround hscope,
    hsurround hname]
  simp [hne, hne.symm]

theorem count_packageSurroundings (h : name ∉ dslTaken classes) :
    (packageSurroundings classes).count name = 0 :=
  List.count_eq_zero_of_not_mem fun hmem => h (packageSurroundings_subset hmem)

theorem count_scopeClass_packageNames (hscope : options.scopeClass ∉ dslTaken classes)
    (hne : options.dslName ≠ options.scopeClass) :
    (packageNames options classes).count options.scopeClass = 1 := by
  -- A scope class is told from the fixed names by its ending.
  have hends : ∀ x ∈ registryNames ++ ["__all__"], ¬ "Dsl".toList <:+ x.toList := by decide
  have hother {x : String} (hx : x ∈ registryNames ++ ["__all__"]) : x ≠ options.scopeClass :=
    fun h => hends x hx (h ▸ options.suffix_scopeClass)
  rw [packageNames_perm.count_eq, List.count_append, List.count_append,
    count_packageSurroundings hscope]
  simp [registryNames, hne, hother (x := "WrapperRegistry") (by decide),
    hother (x := "default_registry") (by decide), hother (x := "__all__") (by decide)]

theorem count_dslName_packageNames (hname : options.dslName ∉ dslTaken classes)
    (hne : options.dslName ≠ options.scopeClass)
    (hletter : Options.isDslName options.dslName = true) :
    (packageNames options classes).count options.dslName
      = registryNames.count options.dslName + 1 := by
  have hall : "__all__" ≠ options.dslName := by
    intro h
    -- An accepted name starts with a letter.
    obtain ⟨c, rest, hlist, hc⟩ := Options.isDslName_head hletter
    rw [← h] at hlist
    obtain rfl : '_' = c := (List.cons.inj hlist).1
    exact absurd hc (by decide)
  rw [packageNames_perm.count_eq, List.count_append, List.count_append,
    count_packageSurroundings hname]
  simp [hne.symm, hall]

/-- If the DSL is emitted, its entry function and its scope class are named apart from each other
and from every other name of the module that defines them. In the package the scope class stands
alone as well, and the entry function does unless it is called like one of the two names that the
index takes from the library. -/
theorem dsl_names_alone_iff {document : Json} {files : List Artifact}
    (haccepted : Options.ofJson document = .ok options)
    (hfiles : Generator.instanceDsl.run options classes = .ok files) :
    options.dslName ≠ options.scopeClass
      ∧ (∃ file, files = [file]
        ∧ file.source.boundNames.count options.scopeClass = 1
        ∧ file.source.boundNames.count options.dslName = 1)
      ∧ (packageNames options classes).count options.scopeClass = 1
      ∧ ((packageNames options classes).count options.dslName = 1 ↔
        options.dslName ≠ "WrapperRegistry" ∧ options.dslName ≠ "default_registry") := by
  obtain ⟨hcheck, -, rfl⟩ := Generator.run_ok_iff.1 hfiles
  obtain ⟨hscope, hname, hne⟩ := checkDslNames_ok_iff.1 (hcheck rfl)
  refine ⟨hne, ⟨_, rfl, count_boundNames_dslModule hscope hname hne⟩,
    count_scopeClass_packageNames hscope hne, ?_⟩
  rw [count_dslName_packageNames hname hne (Options.isDslName_of_ofJson haccepted),
    Nat.add_eq_right, List.count_eq_zero]
  simp [registryNames]

/-- Options whose entry function is called like the registry. -/
def registryOptions : Options := { dslName := "default_registry", packageName := "p" }

/-- These options are accepted, also by the DSL of a class, and the entry function hides the
registry that the index registers wrappers with. -/
theorem registryOptions_hide :
    Options.ofJson registryOptions.toJson = .ok registryOptions
      ∧ ∃ files, Generator.instanceDsl.run registryOptions
          [⟨"P", "http://ex.org/P", "p", "p", [], none, [], ""⟩] = .ok files
        ∧ (packageNames registryOptions
          [⟨"P", "http://ex.org/P", "p", "p", [], none, [], ""⟩]).count "default_registry" ≠ 1 := by
  have haccepted : Options.ofJson registryOptions.toJson = .ok registryOptions := by
    decide +kernel
  have hcheck : checkDslNames registryOptions
      [⟨"P", "http://ex.org/P", "p", "p", [], none, [], ""⟩] = .ok () := by
    decide +kernel
  have hfiles := Generator.run_ok_iff (g := .instanceDsl) |>.2
    ⟨fun _ => hcheck, by decide +kernel, rfl⟩
  obtain ⟨-, -, -, halone⟩ := dsl_names_alone_iff haccepted hfiles
  exact ⟨haccepted, _, hfiles, fun h => (halone.1 h).2 rfl⟩

end Emission

end ShapeForge
