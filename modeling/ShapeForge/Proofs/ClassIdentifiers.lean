import ShapeForge.Package.Loading
import ShapeForge.Platform.Standard
import ShapeForge.Proofs.WordNames

/-!
# Class names as identifiers

Pascal case starts with a capital, or with an underscore before a digit
(`Naming.startsAsClass_toPascalCase`), and so do the suffixed names and the names of wrappers and
builders. So all names of classes are identifiers. Of the reserved words only three start with a
capital (`Naming.isKeyword_iff_of_startsAsClass`), and Pascal case makes them of plain words:
nothing but a suffix keeps a class from being called like one of them.
-/

namespace ShapeForge

namespace Naming

/-- Whether a text is an identifier of ASCII characters. -/
def isAsciiIdentifier (text : String) : Bool :=
  isWordText text && text.toList.head?.any fun c => !c.isDigit

/-- Whether a class can have the name: it is an ASCII identifier and no reserved word. -/
def isDefinable (text : String) : Bool := isAsciiIdentifier text && !isKeyword text

/-- The reserved words that start with a capital. -/
def capitalKeywords : List String := ["False", "None", "True"]

/-- Whether a text starts as the names of classes do. -/
def startsAsClass (text : String) : Bool := text.toList.head?.any fun c => c.isUpper || c == '_'

theorem startsAsClass_append {a : String} (b : String) (h : startsAsClass a = true) :
    startsAsClass (a ++ b) = true := by
  unfold startsAsClass at h ⊢
  rw [String.toList_append]
  rcases hcs : a.toList with _ | ⟨c, rest⟩
  · simp [hcs] at h
  · simpa [hcs] using h

/-- Capitalizing a letter or a digit gives a capital or a digit. -/
theorem toUpper_of_isAlphanum {c : Char} (h : c.isAlphanum = true) :
    c.toUpper.isUpper = true ∨ c.toUpper.isDigit = true := by
  rw [Char.isAlphanum, Bool.or_eq_true] at h
  rcases h with h | h
  · exact .inl (by rw [Char.isUpper_toUpper_eq_isAlpha, h])
  · exact .inr (by rw [toUpper_of_isDigit h, h])

theorem startsAsClass_guardDigit {c : Char} (rest : List Char)
    (h : c.isUpper = true ∨ c.isDigit = true) :
    startsAsClass (String.ofList (guardDigit (c :: rest))) = true := by
  unfold startsAsClass guardDigit
  rcases h with h | h
  · have hdigit : ¬ c.isDigit = true := fun hdigit => by simp [not_isUpper_of_isDigit hdigit] at h
    simp [hdigit, h]
  · simp [h]

theorem startsAsClass_toPascalCase (name : String) : startsAsClass (toPascalCase name) = true := by
  unfold toPascalCase
  split
  · decide
  · -- The first word is not empty, and its first character is capitalized.
    rename_i result hne
    rcases hwords : words name.toList with _ | ⟨w, ws⟩
    · simp [hwords] at hne
    · have hmem : w ∈ words name.toList := by simp [hwords]
      obtain ⟨hw, hchars⟩ := mem_words hmem
      obtain ⟨c, rest, rfl⟩ := List.exists_cons_of_ne_nil hw
      exact startsAsClass_guardDigit _ (toUpper_of_isAlphanum (hchars c List.mem_cons_self))

theorem isAsciiIdentifier_of_startsAsClass {text : String} (hword : isWordText text = true)
    (h : startsAsClass text = true) : isAsciiIdentifier text = true := by
  rw [isAsciiIdentifier, hword, Bool.true_and]
  unfold startsAsClass at h
  rcases hcs : text.toList with _ | ⟨c, rest⟩
  · simp [hcs] at h
  · have hc : c.isUpper = true ∨ c = '_' := by simpa [hcs] using h
    have hdigit : c.isDigit = false := by
      by_contra hdigit
      rw [Bool.not_eq_false] at hdigit
      rcases hc with hc | rfl
      · simp [not_isUpper_of_isDigit hdigit] at hc
      · exact absurd hdigit (by decide)
    simp [hdigit]

/-- Of the reserved words, these three start as the names of classes do. -/
theorem isKeyword_iff_of_startsAsClass {text : String} (h : startsAsClass text = true) :
    isKeyword text = true ↔ text ∈ capitalKeywords := by
  have hkeywords : ∀ k ∈ keywords, startsAsClass k = true → k ∈ capitalKeywords := by decide
  have hcapitals : ∀ k ∈ capitalKeywords, isKeyword k = true := by decide
  refine ⟨fun hk => hkeywords text ?_ h, hcapitals text⟩
  simpa [isKeyword] using hk

theorem isDefinable_iff_of_startsAsClass {text : String} (hword : isWordText text = true)
    (h : startsAsClass text = true) : isDefinable text = true ↔ text ∉ capitalKeywords := by
  rw [← isKeyword_iff_of_startsAsClass h, isDefinable, isAsciiIdentifier_of_startsAsClass hword h]
  simp

/-- A name that goes on after a class name as no reserved word ends is none. -/
theorem isDefinable_append {name ending : String} (hword : isWordText name = true)
    (h : startsAsClass name = true) (hending : isWordText ending = true)
    (hends : ∀ k ∈ capitalKeywords, ¬ ending.toList <:+ k.toList) :
    isDefinable (name ++ ending) = true := by
  refine (isDefinable_iff_of_startsAsClass (isWordText_append.2 ⟨hword, hending⟩)
    (startsAsClass_append ending h)).2 fun hk => hends _ hk ?_
  rw [String.toList_append]
  exact List.suffix_append _ _

end Naming

open Naming (classNameFor suffixed capitalKeywords isAsciiIdentifier isDefinable startsAsClass)

/-! ## Names that were handed out -/

/-- A class has the name that it was declared with, or this name with a suffix. -/
theorem Model.className_of_nameClasses (classes : List DeclaredClass) :
    ∀ e ∈ (nameClasses classes).names, ∃ d ∈ classes, d.iri = e.1
      ∧ (e.2.className = d.name ∨ ∃ n, e.2.className = suffixed d.name n) := by
  refine List.foldlRecOn (motive := fun (s : NamingState) => ∀ e ∈ s.names, ∃ d ∈ classes,
    d.iri = e.1 ∧ (e.2.className = d.name ∨ ∃ n, e.2.className = suffixed d.name n)) classes
    NamingState.add (by simp) fun s ih c hc => ?_
  rw [NamingState.add_names]
  intro e he
  rcases Assoc.mem_put he with rfl | he
  · exact ⟨c, hc, rfl, s.classes.choose_cases c.name s.usable⟩
  · exact ih e he

theorem Text.isIdentifier_of_isAsciiIdentifier {text : String}
    (h : isAsciiIdentifier text = true) : isIdentifier text = true := by
  rw [isAsciiIdentifier, Bool.and_eq_true, Naming.isWordText_iff] at h
  obtain ⟨hword, hhead⟩ := h
  unfold isIdentifier
  rcases hcs : text.toList with _ | ⟨c, rest⟩
  · simp [hcs] at hhead
  · rw [hcs] at hword
    have hdigit : c.isDigit = false := by simpa [hcs] using hhead
    have hstart : startsIdentifier c = true := by
      rcases hword c List.mem_cons_self with hc | rfl
      · rw [Char.isAlphanum, hdigit, Bool.or_false] at hc
        simp [startsIdentifier, isLetter, hc]
      · rfl
    have hrest : rest.all continuesIdentifier = true := by
      rw [List.all_eq_true]
      intro d hd
      rcases hword d (List.mem_cons_of_mem c hd) with hc | rfl
      · rw [Char.isAlphanum, Bool.or_eq_true] at hc
        rcases hc with hc | hc
        · simp [continuesIdentifier, startsIdentifier, isLetter, hc]
        · simp [continuesIdentifier, isDecimal, hc]
      · simp [continuesIdentifier, startsIdentifier]
    simp [hstart, hrest]

/-- A class with an identifier for a name is refused when its package is loaded exactly if the name
is a reserved word. -/
theorem ClassModel.checkName_ok_iff {c : ClassModel} (h : isAsciiIdentifier c.className = true) :
    c.checkName = .ok () ↔ isDefinable c.className = true := by
  rw [checkName, Options.isModuleName, Text.isIdentifier_of_isAsciiIdentifier h, isDefinable, h]
  split_ifs with hk <;> simp [hk]

namespace Ontology

variable {source : String} {context : Option Json} {g : Rdf.Graph} {o : Ontology}
  {notices : List Notice} {c : ClassModel}

theorem name_of_mem_classes [Platform]
    (hread : (ofGraph source context g).outcome = (.ok o, notices))
    {d : DeclaredClass} (hd : d ∈ o.classes) : d.name = classNameFor d.iri := by
  obtain ⟨shapes, terms, -, -, rfl⟩ := ofGraph_ok_iff.1 hread
  obtain ⟨iri, -, rfl⟩ := List.mem_map.1 hd
  dsimp only

theorem className_cases [Platform] (hread : (ofGraph source context g).outcome = (.ok o, notices))
    (hc : c ∈ o.resolve.1) : c.className = classNameFor c.iri
      ∨ ∃ n, c.className = suffixed (classNameFor c.iri) n := by
  obtain ⟨d, hd, hiri, hname⟩ :=
    Model.className_of_nameClasses _ _ (o.mem_classNames_of_mem_resolve hc)
  rw [name_of_mem_classes hread (List.mem_filter.1 hd).1, hiri] at hname
  exact hname

theorem startsAsClass_className [Platform]
    (hread : (ofGraph source context g).outcome = (.ok o, notices))
    (hc : c ∈ o.resolve.1) : startsAsClass c.className = true := by
  have hplain : startsAsClass (classNameFor c.iri) = true := Naming.startsAsClass_toPascalCase _
  rcases className_cases hread hc with h | ⟨n, h⟩
  · rw [h]
    exact hplain
  · rw [h]
    exact Naming.startsAsClass_append _ (Naming.startsAsClass_append _ hplain)

theorem isDefinable_className_iff [Platform]
    (hread : (ofGraph source context g).outcome = (.ok o, notices))
    (hc : c ∈ o.resolve.1) : isDefinable c.className = true ↔
      ¬ (c.className = classNameFor c.iri ∧ classNameFor c.iri ∈ capitalKeywords) := by
  have hword : Naming.isWordText c.className = true :=
    (spelled_names (isWordText_of_mem_classes hread) hc).className
  rw [Naming.isDefinable_iff_of_startsAsClass hword (startsAsClass_className hread hc), not_iff_not]
  rcases className_cases hread hc with h | ⟨n, h⟩
  · rw [h, eq_self_iff_true, true_and]
  · have hends : ∀ k ∈ capitalKeywords, k.toList.getLast?.any Char.isDigit = false := by decide
    have hsuffixed := Naming.suffixed_not_mem hends (classNameFor c.iri) n
    rw [← h] at hsuffixed
    refine iff_of_false hsuffixed fun hplain => hsuffixed ?_
    rw [hplain.1]
    exact hplain.2

/-- The names of classes are ASCII identifiers, and those of wrappers and builders are no reserved
words either. The name of a class is one exactly if it is the plain name of its IRI and this is
`False`, `None` or `True`, and then the package is refused when it is loaded. -/
theorem class_names_definable_iff [Platform]
    (hread : (ofGraph source context g).outcome = (.ok o, notices)) :
    (∀ c ∈ o.resolve.1, isAsciiIdentifier c.className = true
        ∧ isDefinable c.wrapperClass = true ∧ isDefinable c.builderClass = true
        ∧ (isDefinable c.className = true ↔
          ¬ (c.className = classNameFor c.iri ∧ classNameFor c.iri ∈ capitalKeywords))
        ∧ (c.checkName = .ok () ↔ isDefinable c.className = true))
      ∧ ((∀ c ∈ o.resolve.1, isDefinable c.className = true) ↔
        ∀ c ∈ o.resolve.1, classNameFor c.iri ∈ capitalKeywords →
          c.className ≠ classNameFor c.iri) := by
  refine ⟨fun c hc => ?_, ?_⟩
  · have hword := (spelled_names (isWordText_of_mem_classes hread) hc).className
    have hstart := startsAsClass_className hread hc
    have hident := Naming.isAsciiIdentifier_of_startsAsClass hword hstart
    exact ⟨hident, Naming.isDefinable_append hword hstart (by decide) (by decide),
      Naming.isDefinable_append hword hstart (by decide) (by decide),
      isDefinable_className_iff hread hc, c.checkName_ok_iff hident⟩
  · refine forall₂_congr fun c hc => (isDefinable_className_iff hread hc).trans ?_
    rw [not_and, imp_not_comm]

end Ontology

/-- A shape for a class that is called like a word that Pascal case makes a reserved one. -/
def noneGraph : Rdf.Graph where
  triples :=
    [⟨.iri "shape", .iri Rdf.rdfType, .iri (Rdf.sh "NodeShape")⟩,
     ⟨.iri "shape", .iri (Rdf.sh "targetClass"), .iri "http://ex.org/none"⟩]

def noneOntology : Ontology where
  shapes := [⟨"shape", "http://ex.org/none", []⟩]
  context := {}
  classes := [⟨"http://ex.org/none", "None", []⟩]
  source := "shapes"

section

attribute [local instance] Platform.standard

/-- The class cannot be defined, though its wrapper can. -/
theorem none_not_definable :
    (Ontology.ofGraph "shapes" none noneGraph).outcome = (.ok noneOntology, [])
      ∧ ∃ c ∈ noneOntology.resolve.1, c.className = "None"
        ∧ isDefinable c.className = false ∧ c.checkName ≠ .ok ()
        ∧ isDefinable c.wrapperClass = true := by
  have hread : (Ontology.ofGraph "shapes" none noneGraph).outcome = (.ok noneOntology, []) :=
    Ontology.ofGraph_of_shapes (by decide +kernel) (by decide +kernel) rfl rfl
  have hclass : ∃ c ∈ noneOntology.resolve.1, c.className = "None" := by
    rw [Ontology.resolve_eq_evaluate]
    decide +kernel
  obtain ⟨c, hc, hname⟩ := hclass
  have hnone : isDefinable c.className = false := by
    rw [hname]
    decide
  obtain ⟨-, hwrapper, -, -, hcheck⟩ := (Ontology.class_names_definable_iff hread).1 c hc
  refine ⟨hread, c, hc, hname, hnone, fun h => ?_, hwrapper⟩
  rw [hcheck.1 h] at hnone
  contradiction

end

end ShapeForge
