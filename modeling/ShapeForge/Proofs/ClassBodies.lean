import ShapeForge.Platform.Standard
import ShapeForge.Proofs.ClassIdentifiers
import ShapeForge.Proofs.EmittedTexts
import ShapeForge.Proofs.Extraction
import ShapeForge.Proofs.LookupOrder
import ShapeForge.Proofs.NormalNames

/-!
# Names in the bodies of classes

The body of a class is run from top to bottom, and a method that is defined hides what its name
stood for. A body is hygienic if no method takes the name of a decorator of a later one
(`Emission.Class.Hygienic`). Attributes stand before all methods, annotations are not evaluated, and
the defaults of parameters are constants, so decorators are all that a later method looks up.

The name of a property is the name that a shape or a term gives it, perhaps with a suffix
(`Ontology.exists_memberName`). So it is no member that the class or its base has: the names of
these members are kept away from it, or they start with an underscore as no property does
(`Naming.startsAsMember`). Decorators are not kept away.
-/

namespace ShapeForge

namespace Naming

/-- The members of the bases of wrappers and builders that start with an underscore. -/
def baseMembers : List String :=
  ["__init__", "__eq__", "__hash__", "__repr__", "_rdf", "_values", "_check", "_set", "_add",
    "_set_literal", "_add_literal", "_set_object", "_add_object"]

/-- Whether a text starts as the names of properties do: with a small letter, or with a digit behind
an underscore. -/
def startsAsMember (text : String) : Bool :=
  text.toList.head?.any Char.isLower || text.toList.tail.head?.any Char.isDigit

theorem startsAsMember_append {a : String} (b : String) (h : startsAsMember a = true) :
    startsAsMember (a ++ b) = true := by
  unfold startsAsMember at h ⊢
  rw [String.toList_append]
  rcases hcs : a.toList with _ | ⟨c, _ | ⟨d, rest⟩⟩
  · simp [hcs] at h
  · have hc : c.isLower = true := by simpa [hcs] using h
    simp [hc]
  · simpa [hcs] using h

theorem startsAsMember_toSnakeCase (name : String) : startsAsMember (toSnakeCase name) = true := by
  obtain ⟨c, rest, hcs, h⟩ := toSnakeCase_head name
  rw [startsAsMember, hcs, Bool.or_eq_true]
  rcases h with h | ⟨-, d, more, rfl, h⟩
  · exact .inl (by simpa using h)
  · exact .inr (by simpa using h)

theorem startsAsMember_propertyNameFor (name : String) :
    startsAsMember (propertyNameFor name) = true := by
  unfold propertyNameFor
  dsimp only
  split_ifs
  · exact startsAsMember_append "_" (startsAsMember_toSnakeCase name)
  · exact startsAsMember_toSnakeCase name

end Naming

open Naming (suffixed reservedMembers baseMembers)

/-! ## The names of properties -/

namespace Ontology

variable {o : Ontology}

/-- A property is called as a shape or a term calls its predicate, perhaps with a suffix. -/
theorem exists_memberName : ∀ c ∈ o.resolve.1, ∀ p ∈ c.properties,
    ∃ s ∈ o.shapes, ∃ d ∈ s.properties, d.path = p.iri
      ∧ (p.name = Model.memberName o.context d
        ∨ ∃ n, p.name = suffixed (Model.memberName o.context d) n) := by
  refine o.resolve_induction fun c hc ih => ?_
  have hnames := Model.named_of_mem_classModel o o.classNames c.iri
    (P := fun iri name => ∃ s ∈ o.shapes, ∃ d ∈ s.properties, d.path = iri
      ∧ (name = Model.memberName o.context d
        ∨ ∃ n, name = suffixed (Model.memberName o.context d) n)) ih ?_
  · rwa [← (o.eq_classModel_of_mem_resolve hc).1] at hnames
  · intro d hd a
    obtain ⟨s, hs, hds⟩ := List.mem_flatMap.1 hd
    exact ⟨s, (List.mem_filter.1 hs).1, d, hds, rfl, a.choose_cases _ _⟩

theorem exists_propertyNameFor (d : PropertyShape) :
    ∃ text, Model.memberName o.context d = Naming.propertyNameFor text := by
  unfold Model.memberName
  split
  · exact ⟨_, rfl⟩
  · exact ⟨_, rfl⟩

/-- No property is called like a member that the emitted class or its base has. -/
theorem name_not_mem_members {c : ClassModel} (hc : c ∈ o.resolve.1) {p : PropertyModel}
    (hp : p ∈ c.properties) : p.name ∉ reservedMembers ++ baseMembers := by
  have hbase : ∀ x ∈ baseMembers, Naming.startsAsMember x = false := by decide
  have hdigits : ∀ x ∈ reservedMembers, x.toList.getLast?.any Char.isDigit = false := by decide
  obtain ⟨-, -, d, -, -, hname⟩ := exists_memberName c hc p hp
  obtain ⟨text, htext⟩ := o.exists_propertyNameFor d
  rw [htext] at hname
  have hplain := Naming.startsAsMember_propertyNameFor text
  have hboth : p.name ∉ reservedMembers ∧ Naming.startsAsMember p.name = true := by
    rcases hname with h | ⟨n, h⟩ <;> rw [h]
    · exact ⟨Naming.propertyNameFor_not_reserved text, hplain⟩
    · exact ⟨Naming.suffixed_not_mem hdigits _ n,
        Naming.startsAsMember_append _ (Naming.startsAsMember_append _ hplain)⟩
  rw [List.mem_append, not_or]
  refine ⟨hboth.1, fun hmem => ?_⟩
  rw [hbase _ hmem] at hboth
  exact Bool.false_ne_true hboth.2

/-- A name without a suffix is the one that a shape or a term gives. -/
theorem exists_memberName_eq {c : ClassModel} (hc : c ∈ o.resolve.1) {p : PropertyModel}
    (hp : p ∈ c.properties) (hlast : p.name.toList.getLast?.any Char.isDigit = false) :
    ∃ s ∈ o.shapes, ∃ d ∈ s.properties, d.path = p.iri
      ∧ Model.memberName o.context d = p.name := by
  obtain ⟨s, hs, d, hd, hpath, hname⟩ := exists_memberName c hc p hp
  refine ⟨s, hs, d, hd, hpath, ?_⟩
  rcases hname with h | ⟨n, h⟩
  · exact h.symm
  · have hnot := Naming.suffixed_not_mem (List.forall_mem_singleton.2 hlast)
      (Model.memberName o.context d) n
    rw [← h] at hnot
    exact absurd (List.mem_singleton.2 rfl) hnot

end Ontology

/-! ## The bodies of emitted classes -/

namespace Emission

/-- No method takes the name of a decorator of a later one. -/
def Class.Hygienic (k : Class) : Prop :=
  k.methods.Pairwise fun m later => m.name ∉ later.decorators

def Definition.class? : Definition → Option Class
  | .cls k => some k
  | _ => none

/-- The classes that a module defines. -/
def SourceModule.classes (m : SourceModule) : List Class :=
  m.definitions.filterMap Definition.class?

theorem pairwise_earlier_iff {α : Type} {P : α → Prop} :
    ∀ {l : List α}, l.Pairwise (fun a _ => P a) ↔ ∀ a ∈ l.dropLast, P a
  | [] => by simp
  | [a] => by simp
  | a :: b :: l => by
    have hhead : (∀ x ∈ b :: l, P a) ↔ P a := ⟨fun h => h b List.mem_cons_self, fun h _ _ => h⟩
    rw [List.pairwise_cons, hhead, pairwise_earlier_iff, List.dropLast_cons_cons,
      List.forall_mem_cons]

/-- Accessors with the same decorators hide one exactly if an accessor that is not the last has its
name. -/
theorem pairwise_accessors_iff {decorators : List String} {f : PropertyModel → Function}
    (hname : ∀ p, (f p).name = p.name) (hdecorators : ∀ p, (f p).decorators = decorators)
    (properties : List PropertyModel) :
    (properties.map f).Pairwise (fun m later => m.name ∉ later.decorators) ↔
      ClassModel.hides decorators properties = false := by
  simp only [List.pairwise_map, hname, hdecorators]
  rw [pairwise_earlier_iff]
  simp [ClassModel.hides]

theorem hygienic_of_undecorated {k : Class} (h : ∀ m ∈ k.methods, m.decorators = []) :
    k.Hygienic :=
  List.Pairwise.imp_of_mem (fun _ hlater _ => by simp [h _ hlater])
    (List.pairwise_of_forall fun _ _ => trivial)

variable {options : Options} {classes : List ClassModel} {c : ClassModel}

theorem exists_interfaceBody (hsupers : (emittedSupers (moduleTable classes) c).isEmpty
      = c.supers.isEmpty) :
    ∃ k, (interfaceModule options (moduleTable classes) c).classes = [k]
      ∧ k.name = c.className ∧ k.methods.map Function.name = c.declared.map PropertyModel.name
      ∧ (k.Hygienic ↔ ClassModel.hides ["property", "abstractmethod"] c.declared = false) := by
  have hdeclared : interfaceProperties (moduleTable classes) c = c.declared := by
    rw [interfaceProperties, hsupers]
    rfl
  refine ⟨_, rfl, rfl, ?_, ?_⟩
  · dsimp only
    rw [hdeclared, List.map_map]
    rfl
  · unfold Class.Hygienic
    dsimp only
    rw [hdeclared]
    exact pairwise_accessors_iff (f := abstractAccessor options.includeDocs) (fun _ => rfl)
      (fun _ => rfl) c.declared

theorem exists_wrapperBody (options : Options) (c : ClassModel) :
    ∃ k, (wrapperSource options c).classes = [k]
      ∧ k.name = c.wrapperClass
      ∧ k.methods.map Function.name = "__init__" :: c.properties.map PropertyModel.name
      ∧ (k.Hygienic ↔ ClassModel.hides ["cached_property"] c.properties = false) := by
  refine ⟨_, rfl, rfl, ?_, ?_⟩
  · rw [List.map_cons, List.map_map]
    rfl
  · -- The constructor comes first, and no accessor is decorated with it.
    have hconstructor : ∀ m ∈ c.properties.map cachedAccessor, "__init__" ∉ m.decorators := by
      rw [List.forall_mem_map]
      exact fun _ _ => (by decide : "__init__" ∉ ["cached_property"])
    rw [← pairwise_accessors_iff (f := cachedAccessor) (fun _ => rfl) (fun _ => rfl)]
    exact List.pairwise_cons.trans (and_iff_right hconstructor)

theorem builder_hygienic (options : Options) (c : ClassModel) : (builder options c).Hygienic := by
  refine hygienic_of_undecorated ?_
  unfold builder
  dsimp only
  rw [List.forall_mem_append, List.forall_mem_map]
  refine ⟨fun p _ => rfl, forall_mem_optional fun _ => ?_⟩
  exact List.forall_mem_singleton.2 rfl

theorem builder_methods (options : Options) (c : ClassModel) :
    (builder options c).methods.map Function.name = c.properties.map PropertyModel.name
      ++ if options.validationEnabled then ["validate"] else [] := by
  unfold builder
  dsimp only
  rw [List.map_append, List.map_map]
  congr 1
  split_ifs <;> rfl

theorem classes_dslModule (options : Options) (classes : List ClassModel) :
    (dslModule options classes).classes
      = classes.map (builder options) ++ [scope options classes] := by
  simp [SourceModule.classes, dslModule, List.filterMap_map, Function.comp_def, Definition.class?]

end Emission

/-! ## Hygiene of a package -/

/-- The classes that a module of a report defines. -/
def Report.bodies? (r : Report) (options : Options) (name : String) :
    Option (List Emission.Class) :=
  (r.module? options name).map Emission.SourceModule.classes

theorem Package.loadWrapper_of_load {p : Package} (h : p.load = .ok ()) :
    ∀ c ∈ p.classes, c.loadWrapper = .ok () := by
  rw [load, bind_ok_iff] at h
  obtain ⟨-, -, h⟩ := h
  rw [bind_ok_iff] at h
  obtain ⟨-, -, h⟩ := h
  split_ifs at h
  · obtain ⟨-, -, h⟩ := bind_ok_iff.1 h
    exact forM_ok h
  · obtain ⟨⟨⟩, h, -⟩ := bind_ok_iff.1 h
    exact forM_ok h

theorem Package.not_hides_of_load {p : Package} (h : p.load = .ok ()) {c : ClassModel}
    (hc : c ∈ p.classes) : ClassModel.hides ["property", "abstractmethod"] c.declared = false
      ∧ ClassModel.hides ["cached_property"] c.properties = false := by
  have hinterface := loadInterface_of_load h c hc
  have hwrapper := loadWrapper_of_load h c hc
  unfold ClassModel.loadInterface at hinterface
  unfold ClassModel.loadWrapper at hwrapper
  split_ifs at hinterface hwrapper with hreadable horder hdecl hread
  exact ⟨by simpa using hdecl, by simpa using hread⟩

/-- In an emitted package no accessor and no setter is called like a member of its class or of the
base, and the bodies of builders are hygienic. The body of an interface is hygienic exactly if no
accessor before the last one is called `property` or `abstractmethod`, and that of a wrapper exactly
if none is called `cached_property`; a package with another body does not load. Such a name is
always the one that a shape or a term gives. -/
theorem class_bodies_hygienic_iff [Platform] {source : String} {context : Option Json}
    {g : Rdf.Graph} {o : Ontology} {options : Options} {now : String} {report : Report}
    {read written : List Notice}
    (hread : (Ontology.ofGraph source context g).outcome = (.ok o, read))
    (hrun : (generate o options none now).outcome = (.ok report, written)) :
    (∀ c ∈ report.classes, ∀ p ∈ c.properties, p.name ∉ reservedMembers ++ baseMembers)
      ∧ (∀ c ∈ report.classes, ∃ k, report.bodies? options c.moduleName = some [k]
        ∧ k.name = c.className ∧ k.methods.map (·.name) = c.declared.map PropertyModel.name
        ∧ (k.Hygienic ↔ ClassModel.hides ["property", "abstractmethod"] c.declared = false))
      ∧ (∀ c ∈ report.classes, ∃ k, report.bodies? options c.wrapperModule = some [k]
        ∧ k.name = c.wrapperClass
        ∧ k.methods.map (·.name) = "__init__" :: c.properties.map PropertyModel.name
        ∧ (k.Hygienic ↔ ClassModel.hides ["cached_property"] c.properties = false))
      ∧ report.bodies? options "dsl" = some (report.classes.map (Emission.builder options)
        ++ [Emission.scope options report.classes])
      ∧ (∀ c ∈ report.classes, (Emission.builder options c).Hygienic
        ∧ (Emission.builder options c).methods.map (·.name)
          = c.properties.map PropertyModel.name
            ++ if options.validationEnabled then ["validate"] else [])
      ∧ ((Package.mk options report.classes).load = .ok () → ∀ c ∈ report.classes,
        ClassModel.hides ["property", "abstractmethod"] c.declared = false
          ∧ ClassModel.hides ["cached_property"] c.properties = false)
      ∧ ∀ c ∈ report.classes, ∀ p ∈ c.properties,
        p.name ∈ ["property", "abstractmethod", "cached_property"] →
          ∃ s ∈ o.shapes, ∃ d ∈ s.properties, d.path = p.iri
            ∧ Model.memberName o.context d = p.name := by
  have hclasses : (o.classes.map DeclaredClass.iri).Nodup := by
    obtain ⟨shapes, terms, -, -, rfl⟩ := Ontology.ofGraph_ok_iff.1 hread
    exact classesOf_iris_nodup g shapes
  obtain ⟨generators, files, -, hgenerators, hemit, hreport, -⟩ := generate_ok_iff.1 hrun
  cases hgenerators
  have hmodels : report.classes = o.resolve.1 := by rw [hreport]
  have hholds : Emission.Holds (report.module? options) options o.resolve.1 := by
    refine Report.holds_of_emit (Ontology.namesApart_resolve hclasses) ?_
    rw [hemit, hreport]
  have hdigits : ∀ x ∈ ["property", "abstractmethod", "cached_property"],
      x.toList.getLast?.any Char.isDigit = false := by decide
  rw [hmodels]
  refine ⟨fun c hc p hp => Ontology.name_not_mem_members hc hp, fun c hc => ?_, fun c hc => ?_, ?_,
    fun c _ => ⟨Emission.builder_hygienic options c, Emission.builder_methods options c⟩,
    fun hload c hc => Package.not_hides_of_load hload hc,
    fun c hc p hp hname => Ontology.exists_memberName_eq hc hp (hdigits _ hname)⟩
  · obtain ⟨k, hk, hbody⟩ := Emission.exists_interfaceBody (Ontology.emittedSupers_isEmpty hc)
    exact ⟨k, by rw [Report.bodies?, hholds _ _ (.interface hc), Option.map_some, hk], hbody⟩
  · obtain ⟨k, hk, hbody⟩ := Emission.exists_wrapperBody options c
    exact ⟨k, by rw [Report.bodies?, hholds _ _ (.wrapper hc), Option.map_some, hk], hbody⟩
  · rw [Report.bodies?, hholds _ _ .dsl, Option.map_some, Emission.classes_dslModule]

open Emission (registryOptions)

/-- A class with two shapes, of which the first has a property that is called like a decorator. -/
def propertyGraph : Rdf.Graph where
  triples :=
    [⟨.iri "ps", .iri Rdf.rdfType, .iri (Rdf.sh "NodeShape")⟩,
     ⟨.iri "ps", .iri (Rdf.sh "targetClass"), .iri "http://ex.org/P"⟩,
     ⟨.iri "ps", .iri (Rdf.sh "property"), .iri "q"⟩,
     ⟨.iri "q", .iri (Rdf.sh "path"), .iri "http://ex.org/property"⟩,
     ⟨.iri "pt", .iri Rdf.rdfType, .iri (Rdf.sh "NodeShape")⟩,
     ⟨.iri "pt", .iri (Rdf.sh "targetClass"), .iri "http://ex.org/P"⟩,
     ⟨.iri "pt", .iri (Rdf.sh "property"), .iri "r"⟩,
     ⟨.iri "r", .iri (Rdf.sh "path"), .iri "http://ex.org/name"⟩]

def propertyOntology : Ontology where
  shapes :=
    [⟨"ps", "http://ex.org/P", [{ path := "http://ex.org/property", name := "property" }]⟩,
     ⟨"pt", "http://ex.org/P", [{ path := "http://ex.org/name", name := "name" }]⟩]
  context := {}
  classes := [⟨"http://ex.org/P", "P", []⟩]
  source := "shapes"

section

attribute [local instance] Platform.standard

/-- The body of its interface is not hygienic, and the package does not load. -/
theorem property_hides_decorator : ∃ report written,
    (Ontology.ofGraph "shapes" none propertyGraph).outcome = (.ok propertyOntology, [])
      ∧ (generate propertyOntology registryOptions none "").outcome = (.ok report, written)
      ∧ ∃ c ∈ report.classes, ∃ k, report.bodies? registryOptions c.moduleName = some [k]
        ∧ k.methods.map (·.name) = ["property", "name"] ∧ ¬ k.Hygienic
        ∧ (Package.mk registryOptions report.classes).load ≠ .ok () := by
  have hread : (Ontology.ofGraph "shapes" none propertyGraph).outcome
      = (.ok propertyOntology, []) :=
    Ontology.ofGraph_of_shapes (by decide +kernel) (by decide +kernel) rfl rfl
  have hready : propertyOntology.isWalkable = true
      ∧ Emission.checkDslNames registryOptions propertyOntology.evaluate = .ok ()
      ∧ Emission.IsWritten registryOptions propertyOntology.evaluate := by
    decide +kernel
  have hclass : ∃ c ∈ propertyOntology.evaluate,
      c.declared.map PropertyModel.name = ["property", "name"]
        ∧ ClassModel.hides ["property", "abstractmethod"] c.declared = true := by
    decide +kernel
  rw [← Ontology.resolve_eq_evaluate] at hready hclass
  obtain ⟨c, hc, hnames, hhides⟩ := hclass
  obtain ⟨report, written, hrun⟩ := generate_default_iff.2 hready
  obtain ⟨-, hinterface, -, -, -, hload, -⟩ := class_bodies_hygienic_iff hread hrun
  obtain ⟨_, _, -, -, -, hreport, -⟩ := generate_ok_iff.1 hrun
  have hmodels : report.classes = propertyOntology.resolve.1 := by rw [hreport]
  rw [← hmodels] at hc
  obtain ⟨k, hk, -, hmethods, hiff⟩ := hinterface c hc
  refine ⟨report, written, hread, hrun, c, hc, k, hk, hmethods.trans hnames, fun h => ?_,
    fun h => ?_⟩
  · rw [hiff.1 h] at hhides
    contradiction
  · rw [(hload h c hc).1] at hhides
    contradiction

end

end ShapeForge
