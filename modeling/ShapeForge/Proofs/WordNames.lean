import ShapeForge.Proofs.Imports

/-!
# The characters of names

All names of a package consist of ASCII letters, digits and underscores, whatever the IRIs and the
terms that they come from: the cases of names have no other characters, and so have suffixes
(`Naming.isWordText_choose`). The names of classes keep this while they are handed out
(`Model.nameClasses_spelled`), and so do the names of properties.
-/

namespace ShapeForge

namespace Naming

/-- Whether a text consists of ASCII letters, digits and underscores. -/
def isWordText (text : String) : Bool := text.toList.all fun c => c.isAlphanum || c == '_'

theorem isWordText_iff {text : String} :
    isWordText text = true ↔ ∀ c ∈ text.toList, c.isAlphanum = true ∨ c = '_' := by
  simp [isWordText]

theorem isWordText_append {a b : String} :
    isWordText (a ++ b) = true ↔ isWordText a = true ∧ isWordText b = true := by
  rw [isWordText, String.toList_append, List.all_append, Bool.and_eq_true]
  rfl

theorem isAlphanum_toUpper {c : Char} (h : c.isAlphanum = true) : c.toUpper.isAlphanum = true := by
  rw [Char.isAlphanum, Bool.or_eq_true] at h ⊢
  rcases h with h | h
  · exact .inl (by simpa using h)
  · exact .inr (by rw [toUpper_of_isDigit h, h])

theorem isWordText_of_isSnake {text : String} (h : ∀ c ∈ text.toList, isSnake c = true) :
    isWordText text = true := by
  rw [isWordText_iff]
  intro c hc
  have hsnake := h c hc
  simp only [isSnake, Bool.or_eq_true, beq_iff_eq] at hsnake
  rcases hsnake with (hlower | hdigit) | rfl
  · exact .inl (by simp [Char.isAlphanum, Char.isAlpha, hlower])
  · exact .inl (by simp [Char.isAlphanum, hdigit])
  · exact .inr rfl

theorem isAlphanum_of_mem_capitalized {cs : List Char} {c : Char}
    (h : c ∈ (words cs).flatMap capitalize) : c.isAlphanum = true := by
  obtain ⟨w, hw, hc⟩ := List.mem_flatMap.1 h
  have hchars := (mem_words hw).2
  rcases w with _ | ⟨d, w⟩
  · cases hc
  · rcases List.mem_cons.1 hc with rfl | hc
    · exact isAlphanum_toUpper (hchars d List.mem_cons_self)
    · exact hchars c (List.mem_cons_of_mem d hc)

theorem isWordText_toPascalCase (name : String) : isWordText (toPascalCase name) = true := by
  unfold toPascalCase
  split
  · decide
  · rw [isWordText_iff, String.toList_ofList]
    intro c hc
    rcases mem_guardDigit hc with rfl | hc
    · exact .inr rfl
    · exact .inl (isAlphanum_of_mem_capitalized hc)

theorem isWordText_toSnakeCase (name : String) : isWordText (toSnakeCase name) = true :=
  isWordText_of_isSnake fun _ => isSnake_of_mem_toSnakeCase

theorem isWordText_propertyNameFor (name : String) : isWordText (propertyNameFor name) = true := by
  unfold propertyNameFor
  dsimp only
  split_ifs
  · exact isWordText_append.2 ⟨isWordText_toSnakeCase name, by decide⟩
  · exact isWordText_toSnakeCase name

theorem isWordText_moduleNameFor (name : String) : isWordText (moduleNameFor name) = true :=
  isWordText_of_isSnake fun _ => isSnake_of_mem_moduleNameFor

theorem isWordText_choose (a : Allocator) {name : String} (condition : Condition)
    (h : isWordText name = true) : isWordText (a.choose name condition) = true := by
  unfold Allocator.choose
  split_ifs
  · exact h
  · rw [suffixed, isWordText_append, isWordText_append]
    refine ⟨⟨h, by decide⟩, isWordText_iff.2 fun c hc => .inl ?_⟩
    rw [Nat.repr, String.toList_ofList] at hc
    rw [Char.isAlphanum, isDigit_of_mem_toDigits hc, Bool.or_true]

end Naming

open Naming (isWordText)

theorem ClassModel.isWordText_rulesConstant {c : ClassModel} (h : isWordText c.moduleName = true) :
    isWordText c.rulesConstant = true := by
  rw [rulesConstant, Naming.isWordText_append]
  refine ⟨Naming.isWordText_iff.2 fun d hd => ?_, by decide⟩
  rw [String.toList_ofList] at hd
  obtain ⟨e, he, rfl⟩ := List.mem_map.1 hd
  rcases Naming.isWordText_iff.1 h e he with he | rfl
  · exact .inl (Naming.isAlphanum_toUpper he)
  · exact .inr (by decide)

theorem Options.isWordText_of_isDslName {name : String} (h : isDslName name = true) :
    isWordText name = true := by
  unfold isDslName at h
  split at h
  · cases h
  · rename_i c rest hname
    simp only [Bool.and_eq_true] at h
    rw [isWordText, hname, List.all_cons, h.1.2, Char.isAlphanum, h.1.1]
    rfl

/-- All names of a class are words. -/
structure ClassNames.Spelled (n : ClassNames) : Prop where
  className : isWordText n.className = true
  moduleName : isWordText n.moduleName = true
  builderName : isWordText n.builderName = true

namespace Model

theorem NamingState.spelled_next (s : NamingState) {c : DeclaredClass}
    (h : isWordText c.name = true) : (s.next c).Spelled where
  className := Naming.isWordText_choose _ _ h
  moduleName := by
    rw [s.next_moduleName]
    exact Naming.isWordText_moduleNameFor _
  builderName := Naming.isWordText_choose _ _ (Naming.isWordText_propertyNameFor _)

theorem nameClasses_spelled {classes : List DeclaredClass}
    (h : ∀ c ∈ classes, isWordText c.name = true) :
    ∀ e ∈ (nameClasses classes).names, e.2.Spelled := by
  refine List.foldlRecOn (motive := fun (s : NamingState) => ∀ e ∈ s.names, e.2.Spelled) classes
    NamingState.add (by simp) fun s ih c hc => ?_
  rw [NamingState.add_names]
  intro e he
  rcases Assoc.mem_put he with rfl | he
  · exact s.spelled_next (h c hc)
  · exact ih e he

theorem isWordText_memberName (context : Context) (d : PropertyShape) :
    isWordText (memberName context d) = true := by
  unfold memberName
  split <;> exact Naming.isWordText_propertyNameFor _

end Model

/-- All names that a class is emitted with are words. -/
structure ClassModel.Spelled (c : ClassModel) : Prop where
  names : c.names.Spelled
  properties : ∀ p ∈ c.properties, isWordText p.name = true
  types : ∀ p ∈ c.properties, isWordText p.type.name = true

namespace Ontology

variable {o : Ontology} {c : ClassModel}

theorem spelled_names (h : ∀ d ∈ o.classes, isWordText d.name = true) (hc : c ∈ o.resolve.1) :
    c.names.Spelled := by
  have hnames : ∀ e ∈ o.classNames, e.2.Spelled :=
    Model.nameClasses_spelled fun d hd => h d (List.mem_filter.1 hd).1
  exact hnames (c.iri, c.names) (o.mem_classNames_of_mem_resolve hc)

theorem isWordText_property_name (hc : c ∈ o.resolve.1) :
    ∀ p ∈ c.properties, isWordText p.name = true := by
  refine o.resolve_induction (P := fun c => ∀ p ∈ c.properties, isWordText p.name = true)
    (fun c hc ih => ?_) c hc
  have hproperties := Model.named_of_mem_classModel o o.classNames c.iri
    (P := fun _ name => isWordText name = true) ih fun d _ _ =>
      Naming.isWordText_choose _ _ (Model.isWordText_memberName o.context d)
  rwa [← (o.eq_classModel_of_mem_resolve hc).1] at hproperties

theorem spelled_of_mem_resolve (h : ∀ d ∈ o.classes, isWordText d.name = true)
    (hc : c ∈ o.resolve.1) : c.Spelled := by
  refine ⟨spelled_names h hc, isWordText_property_name hc, fun p hp => ?_⟩
  rcases htype : p.type with ⟨type, datatype⟩ | ⟨className, moduleName⟩ | _
  · rw [TargetType.name]
    cases type <;> decide
  · obtain ⟨-, -, -, -, t, ht, -, hname, -⟩ := exists_class_of_object hc hp htype
    rw [← hname]
    exact (spelled_names h ht).className
  · decide

/-- The names of the classes of a graph are words. -/
theorem isWordText_of_mem_classes [Platform] {source : String} {context : Option Json}
    {g : Rdf.Graph}
    {notices : List Notice} (h : (ofGraph source context g).outcome = (.ok o, notices)) :
    ∀ d ∈ o.classes, isWordText d.name = true := by
  obtain ⟨shapes, read, -, -, rfl⟩ := ofGraph_ok_iff.1 h
  intro d hd
  obtain ⟨iri, -, rfl⟩ := List.mem_map.1 hd
  dsimp only [Naming.classNameFor]
  exact Naming.isWordText_toPascalCase _

end Ontology

end ShapeForge
