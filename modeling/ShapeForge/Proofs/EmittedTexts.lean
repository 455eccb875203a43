import ShapeForge.Package.Basic
import ShapeForge.Platform.Standard
import ShapeForge.Proofs.DslNames
import ShapeForge.Proofs.Expressions
import ShapeForge.Proofs.SourceLines

/-!
# The text constants of a package

The text constants of each module of a package are texts of the class models: IRIs, accessors,
value types, patterns, flags and values. Names and types stand outside of constants and have
harmless characters only (`ClassModel.Spelled`), so reading the modules gives back exactly these
texts, whatever characters they have (`emitted_texts`).
-/

namespace ShapeForge

open Emission
open Text (isPlain Shows textsOf? textsOf?_nil textsOf?_append textsOf?_flatMap_nil textsOf?_plain)

/-! ## The texts of class models -/

/-- The texts of the rule of a property. -/
def PropertyModel.ruleTexts (p : PropertyModel) : List String :=
  [p.name, p.iri, p.valueType] ++ p.constraints.pattern.toList ++ p.constraints.flags.toList
    ++ p.constraints.inValues.getD [] ++ p.constraints.hasValue.toList

/-- The name of the scalar type of literals. -/
def TargetType.scalarName? : TargetType → Option String
  | .literal type _ => some type.name
  | _ => none

namespace ClassModel

/-- The texts of the interface of a class: its IRI, and its accessors with their predicates. -/
def interfaceTexts (c : ClassModel) : List String :=
  c.iri :: c.declared.flatMap fun p => [p.name, p.iri]

/-- The texts of the wrapper of a class: the predicates, and what each accessor reads. -/
def wrapperTexts (c : ClassModel) : List String :=
  c.knownPredicates ++ c.properties.flatMap fun p => p.iri :: p.type.scalarName?.toList

/-- The texts of the rules of a class. -/
def rulesTexts (c : ClassModel) : List String :=
  c.properties.flatMap fun p => p.name :: p.ruleTexts

/-- The texts of the builder of a class: its IRI, and its accessors with their datatypes. -/
def builderTexts (c : ClassModel) : List String :=
  c.iri :: c.properties.flatMap fun p => p.name :: p.type.datatype.toList

end ClassModel

/-! ## Names -/

/-- The names of a class and those made from them are plain. -/
structure ClassModel.PlainNames (c : ClassModel) : Prop where
  className : isPlain c.className = true
  moduleName : isPlain c.moduleName = true
  builderName : isPlain c.builderName = true
  rulesConstant : isPlain c.rulesConstant = true

theorem ClassModel.Spelled.plainNames {c : ClassModel} (h : c.Spelled) : c.PlainNames where
  className := isPlain_of_isWordText h.names.className
  moduleName := isPlain_of_isWordText h.names.moduleName
  builderName := isPlain_of_isWordText h.names.builderName
  rulesConstant := isPlain_of_isWordText (isWordText_rulesConstant h.names.moduleName)

namespace ClassModel.PlainNames

variable {c : ClassModel} (h : c.PlainNames)

include h

theorem wrapperClass : isPlain c.wrapperClass = true := by
  rw [ClassModel.wrapperClass, Model.wrapperName, Text.isPlain_append, h.className]
  decide

theorem builderClass : isPlain c.builderClass = true := by
  rw [ClassModel.builderClass, Model.builderClassName, Text.isPlain_append, h.className]
  decide

theorem wrapperModule : isPlain c.wrapperModule = true := by
  rw [ClassModel.wrapperModule, Model.wrapperModule, Text.isPlain_append, h.moduleName]
  decide

theorem violationsFunction : isPlain c.violationsFunction = true := by
  rw [ClassModel.violationsFunction, Text.isPlain_append, h.moduleName]
  decide

theorem validateFunction : isPlain c.validateFunction = true := by
  rw [ClassModel.validateFunction, Text.isPlain_append, h.moduleName]
  decide

end ClassModel.PlainNames

section Modules

variable {options : Options} {classes : List ClassModel} {c : ClassModel} {p : PropertyModel}

theorem isPlain_annotationText (h : isPlain p.type.name = true) :
    isPlain p.annotationText = true := by
  unfold PropertyModel.annotationText
  split_ifs <;> simp only [Text.isPlain_append, h] <;> decide

theorem isPlain_of_listed (hspelled : ∀ c ∈ classes, c.Spelled) {reference : String × String}
    (h : Listed classes reference) : isPlain reference.1 = true ∧ isPlain reference.2 = true := by
  obtain ⟨d, hd, hname, hmodule⟩ := h
  have hplain := (hspelled d hd).plainNames
  exact ⟨hname ▸ hplain.className, hmodule ▸ hplain.moduleName⟩

theorem plain_sibling {moduleName : String} {names : List String} {stacked : Bool}
    (hmodule : isPlain moduleName = true) (hnames : ∀ name ∈ names, isPlain name = true) :
    Import.Plain ⟨.sibling moduleName, names, stacked⟩ := by
  refine ⟨?_, hnames⟩
  rw [Origin.text, Text.isPlain_append, hmodule]
  decide

theorem plain_of_listed (hspelled : ∀ c ∈ classes, c.Spelled) {reference : String × String}
    (h : Listed classes reference) : Import.Plain ⟨.sibling reference.2, [reference.1], false⟩ := by
  obtain ⟨hname, hmodule⟩ := isPlain_of_listed hspelled h
  exact plain_sibling hmodule (List.forall_mem_singleton.2 hname)

theorem plain_library {path : String} {names : List String} (hpath : isPlain path = true)
    (hnames : ∀ name ∈ names, isPlain name = true) : Import.Plain ⟨.library path, names, false⟩ :=
  ⟨hpath, hnames⟩

/-! ## Interfaces -/

theorem mem_properties_of_mem_declared (h : p ∈ c.declared) : p ∈ c.properties := by
  unfold ClassModel.declared at h
  split_ifs at h
  · exact h
  · exact (List.mem_filter.1 h).1

theorem textsOf?_predicateMap (properties : List PropertyModel) :
    textsOf? ((predicateMap properties).lines "    ")
      = some (properties.flatMap fun p => [p.name, p.iri]) := by
  unfold predicateMap
  split_ifs with hempty
  · rw [List.isEmpty_iff.1 hempty]
    exact textsOf?_inline (by decide) (by decide) (by decide) (.plain (by decide))
  · refine textsOf?_entries (by decide) (by decide) (by decide) (by decide) (by decide)
      fun p _ => ?_
    exact (Shows.constant p.name).append_after (by decide) (.constant p.iri)

theorem textsOf?_abstractAccessor (docs : Bool) (hname : isPlain p.name = true)
    (htype : isPlain p.type.name = true) :
    textsOf? ((abstractAccessor docs p).undocumented.lines "    ") = some [] := by
  unfold abstractAccessor
  refine textsOf?_function (by decide) ⟨?_, hname, ?_, ?_⟩ (textsOf?_plain ?_)
  · dsimp only
    decide
  · dsimp only
    decide
  · rintro _ ⟨⟩
    exact isPlain_annotationText htype
  · dsimp only
    split_ifs <;> decide

theorem textsOf?_interfaceModule (hspelled : ∀ c ∈ classes, c.Spelled) (hc : c ∈ classes)
    (hreferenced : ∀ reference ∈ c.referenced, Listed classes reference)
    (hdeclared : interfaceProperties (moduleTable classes) c = c.declared) :
    textsOf? (interfaceModule options (moduleTable classes) c).code = some c.interfaceTexts := by
  have hnames := (hspelled c hc).plainNames
  refine textsOf?_code ⟨?_, ?_⟩ ?_
  · simp only [interfaceModule, List.forall_mem_append, List.forall_mem_cons, List.mem_nil_iff,
      false_implies, implies_true, and_true]
    refine ⟨⟨⟨plain_library (by decide) (by decide), plain_library (by decide) (by decide)⟩,
      forall_mem_optional fun _ => ?_⟩, ?_⟩
    · simpa using plain_library (by decide) (by decide)
    · split_ifs
      · simpa using plain_library (by decide) (by decide)
      · rw [List.forall_mem_map]
        exact fun reference href => plain_of_listed hspelled (listed_of_mem_emittedSupers href)
  · simp only [interfaceModule, List.forall_mem_map]
    exact fun reference href => plain_of_listed hspelled (hreferenced _ (List.mem_filter.1 href).1)
  · dsimp only [interfaceModule]
    rw [hdeclared]
    have hmethods := textsOf?_methods fun p (hp : p ∈ c.declared) =>
      textsOf?_abstractAccessor options.includeDocs
        (isPlain_of_isWordText ((hspelled c hc).properties p (mem_properties_of_mem_declared hp)))
        (isPlain_of_isWordText ((hspelled c hc).types p (mem_properties_of_mem_declared hp)))
    have hiri : textsOf? (Assignment.lines "    "
        { name := "CLASS_IRI", type := some "ClassVar[str]", value := .inline (Text.quoted c.iri) })
        = some [c.iri] := textsOf?_inline (by decide) (by decide) (by decide) (.constant c.iri)
    have hbases : ∀ base ∈ (if (emittedSupers (moduleTable classes) c).isEmpty
        then ["OntologyInterface"] else (emittedSupers (moduleTable classes) c).map (·.1)),
        isPlain base = true := by
      split_ifs
      · decide
      · rw [List.forall_mem_map]
        exact fun reference href =>
          (isPlain_of_listed hspelled (listed_of_mem_emittedSupers href)).1
    have hattributes := textsOf?_append hiri
      (textsOf?_append (textsOf?_predicateMap c.declared) textsOf?_nil)
    have htexts : c.interfaceTexts = [c.iri]
        ++ (c.declared.flatMap (fun p => [p.name, p.iri]) ++ [])
        ++ c.declared.flatMap (fun _ => []) := by
      simp [ClassModel.interfaceTexts]
    rw [htexts]
    exact textsOf?_definitionLines_singleton
      (textsOf?_class hnames.className hbases hattributes hmethods)

/-! ## Wrappers -/

theorem shows_predicate (iri : String) : Shows ("URIRef(" ++ Text.quoted iri ++ ")") [iri] :=
  ((Shows.constant iri).after (by decide)).append_plain (by decide)

theorem shows_readExpression (htype : isPlain p.type.name = true) :
    Shows (readExpression p) (p.iri :: p.type.scalarName?.toList) := by
  have hread (one many : String) (hopens : Text.opensConstant ("self.rdf."
      ++ (if p.isList then many else one) ++ "(") = true) :
      Shows ("self.rdf." ++ (if p.isList then many else one) ++ "("
        ++ ("URIRef(" ++ Text.quoted p.iri ++ ")")) [p.iri] := (shows_predicate p.iri).after hopens
  unfold readExpression
  rcases hp : p.type with ⟨type, datatype⟩ | ⟨className, moduleName⟩ | _
  · exact ((hread "literal" "literals" (by cases p.isList <;> decide)).append_after (by decide)
      (.constant type.name)).append_plain (by decide)
  · rw [hp] at htype
    exact (((hread "object" "objects" (by cases p.isList <;> decide)).append_plain
      (by decide)).append_plain htype).append_plain (by decide)
  · exact (hread "resource" "resources" (by cases p.isList <;> decide)).append_plain (by decide)

theorem textsOf?_cachedAccessor (hname : isPlain p.name = true)
    (htype : isPlain p.type.name = true) :
    textsOf? ((cachedAccessor p).undocumented.lines "    ")
      = some (p.iri :: p.type.scalarName?.toList) := by
  unfold cachedAccessor
  refine textsOf?_function (by decide) ⟨?_, hname, ?_, ?_⟩
    (textsOf?_body (by decide) ((shows_readExpression htype).after (by decide)))
  · dsimp only
    decide
  · dsimp only
    decide
  · rintro _ ⟨⟩
    exact isPlain_annotationText htype

theorem textsOf?_knownPredicates (predicates : List String) :
    textsOf? ((knownPredicatesAttribute predicates).lines "    ") = some predicates := by
  unfold knownPredicatesAttribute
  split_ifs with hempty
  · rw [List.isEmpty_iff.1 hempty]
    exact textsOf?_inline (by decide) (by decide) (by decide) (.plain (by decide))
  · refine (textsOf?_entries (by decide) (by decide) (by decide) (by decide) (by decide)
      fun iri _ => shows_predicate iri).trans ?_
    rw [List.flatMap_singleton']

theorem textsOf?_wrapperConstructor {validator : String} (h : isPlain validator = true) :
    textsOf? ((wrapperConstructor validator).undocumented.lines "    ") = some [] := by
  unfold wrapperConstructor
  refine textsOf?_plainFunction (by decide) (by constructor <;> dsimp only <;> decide) ?_
  rw [List.forall_mem_singleton]
  simp only [Text.isPlain_append, h]
  decide

theorem textsOf?_registerFunction (doc : List String) {body : List String}
    (h : ∀ line ∈ body, isPlain line = true) :
    textsOf? ((registerFunction doc body).undocumented.lines "") = some [] := by
  unfold registerFunction
  exact textsOf?_plainFunction (by decide) (by constructor <;> dsimp only <;> decide) h

theorem textsOf?_wrapperSource (hspelled : ∀ c ∈ classes, c.Spelled) (hc : c ∈ classes)
    (hreferenced : ∀ reference ∈ c.referenced, Listed classes reference) :
    textsOf? (wrapperSource options c).code = some c.wrapperTexts := by
  have hnames := (hspelled c hc).plainNames
  have hvalidator : isPlain (if options.validationEnabled then c.violationsFunction else "None")
      = true := by
    split_ifs
    · exact hnames.violationsFunction
    · decide
  refine textsOf?_code ⟨?_, ?_⟩ ?_
  · simp only [wrapperSource, List.forall_mem_append, List.forall_mem_cons, List.forall_mem_map,
      List.mem_nil_iff, false_implies, implies_true, and_true]
    refine ⟨⟨plain_library (by decide) (by decide), plain_library (by decide) (by decide)⟩,
      ⟨plain_library (by decide) (by decide), forall_mem_optional fun _ => ?_⟩,
      ⟨⟨plain_library (by decide) (by decide), ?_⟩, ?_⟩, forall_mem_optional fun _ => ?_⟩
    · simpa using plain_library (by decide) (by decide)
    · exact plain_sibling hnames.moduleName (List.forall_mem_singleton.2 hnames.className)
    · exact fun reference href =>
        plain_of_listed hspelled (hreferenced _ (List.mem_filter.1 href).1)
    · rw [List.forall_mem_singleton]
      exact plain_sibling (by decide) (List.forall_mem_singleton.2 hnames.violationsFunction)
  · simp [wrapperSource]
  · have hmethods := textsOf?_methods_append
      (textsOf?_method (textsOf?_wrapperConstructor hvalidator))
      (textsOf?_methods fun p (hp : p ∈ c.properties) => textsOf?_cachedAccessor
        (isPlain_of_isWordText ((hspelled c hc).properties p hp))
        (isPlain_of_isWordText ((hspelled c hc).types p hp)))
    have hbases : ∀ base ∈ [c.className, "RdfBacked"], isPlain base = true := by
      rw [List.forall_mem_cons, List.forall_mem_singleton]
      exact ⟨hnames.className, by decide⟩
    have hregister : textsOf? ((registerFunction []
        ["registry.register(" ++ c.className ++ ", " ++ c.wrapperClass ++ ")"]).undocumented.lines
          "") = some [] := by
      refine textsOf?_registerFunction [] (List.forall_mem_singleton.2 ?_)
      simp only [Text.isPlain_append, hnames.className, hnames.wrapperClass]
      decide
    have hcall : textsOf? (Definition.call "register").undocumented.lines = some [] := by decide
    have htexts : c.wrapperTexts = (c.knownPredicates ++ [])
        ++ ([] ++ c.properties.flatMap fun p => p.iri :: p.type.scalarName?.toList)
        ++ ([] ++ []) := by
      simp [ClassModel.wrapperTexts]
    rw [htexts]
    exact textsOf?_definitionLines_cons
      (textsOf?_class hnames.wrapperClass hbases
        (textsOf?_append (textsOf?_knownPredicates c.knownPredicates) textsOf?_nil) hmethods)
      (textsOf?_definitionLines_cons hregister (textsOf?_definitionLines_singleton hcall))

/-! ## Rules -/

theorem flatMap_filterMap_texts (entries : List (String × Option Constant)) :
    ((entries.filterMap fun e => e.2.map (e.1, ·)).flatMap fun a => a.2.operand.texts)
      = entries.flatMap fun e => (e.2.map fun value => value.operand.texts).getD [] := by
  induction entries with
  | nil => rfl
  | cons e entries ih =>
    rcases e with ⟨key, _ | value⟩
    · exact ih
    · exact congrArg (value.operand.texts ++ ·) ih

theorem flatMap_ruleKeywords (p : PropertyModel) :
    ((ruleKeywords p).flatMap fun a => a.2.operand.texts) = p.ruleTexts := by
  have hnumber {α : Type} (x : Option α) (f : α → Bound) :
      ((x.map fun y => Constant.number (f y)).map fun value => value.operand.texts).getD []
        = [] := by
    cases x <;> rfl
  have htext (x : Option String) :
      ((x.map Constant.text).map fun value => value.operand.texts).getD [] = x.toList := by
    cases x <;> rfl
  have htexts (x : Option (List String)) :
      ((x.map Constant.texts).map fun value => value.operand.texts).getD [] = x.getD [] := by
    rcases x with _ | ts
    · rfl
    · simp [Constant.operand_texts, Operand.texts, Operand.allTexts_map_text]
  have hcount (n : ℤ) : ((if n = 0 then none else some (Constant.number (.int n))).map
      fun value => value.operand.texts).getD [] = [] := by
    split_ifs <;> rfl
  have hgiven (s : String) :
      ((some (Constant.text s)).map fun value => value.operand.texts).getD [] = [s] := rfl
  rw [ruleKeywords, flatMap_filterMap_texts]
  simp only [ruleEntries, ruleParameters, List.zip_cons_cons, List.zip_nil_right,
    List.flatMap_cons, List.flatMap_nil, hgiven, hnumber, htext, htexts, hcount, List.nil_append,
    List.append_nil, PropertyModel.ruleTexts, List.append_assoc, List.cons_append]

theorem shows_ruleExpression (p : PropertyModel) : Shows (ruleExpression p) p.ruleTexts := by
  obtain ⟨pieces, hreads, -, htexts⟩ := exists_ruleCall p
  exact ⟨pieces, hreads, htexts.trans (flatMap_ruleKeywords p)⟩

theorem textsOf?_rulesAssignment (hconstant : isPlain c.rulesConstant = true) :
    textsOf? ((rulesAssignment c).lines "") = some c.rulesTexts := by
  unfold rulesAssignment
  split_ifs with hempty
  · rw [ClassModel.rulesTexts, List.isEmpty_iff.1 hempty]
    exact textsOf?_inline (by decide) hconstant (by decide) (.plain (by decide))
  · exact textsOf?_entries (by decide) hconstant (by decide) (by decide) (by decide) fun p _ =>
      (Shows.constant p.name).append_after (by decide) (shows_ruleExpression p)

theorem textsOf?_violationsRoutine (hnames : c.PlainNames) :
    textsOf? ((violationsRoutine options c).undocumented.lines "") = some [] := by
  unfold violationsRoutine
  refine textsOf?_plainFunction (by decide) ⟨?_, hnames.violationsFunction, ?_, ?_⟩ ?_
  · dsimp only
    decide
  · dsimp only
    decide
  · dsimp only
    decide
  · rw [List.forall_mem_singleton]
    simp only [Text.isPlain_append, hnames.rulesConstant]
    decide

/-- The message of a failed validation has the name of the class filled in. -/
theorem shows_failure (hname : Naming.isWordText c.className = true) :
    Shows ("    raise ValidationError(f\"" ++ c.className
      ++ " \x7bnode\x7d failed validation\", violations)") [] := by
  have hplain := isPlain_of_isWordText hname
  have hrest : " \x7bnode\x7d failed validation".toList.all
      (fun d => Text.isPlainChar d && d != '\\') = true := by decide
  have hescape : ∀ d ∈ (c.className ++ " \x7bnode\x7d failed validation").toList,
      Text.isPlainChar d = true ∧ d ≠ '\\' := by
    rw [String.toList_append, List.forall_mem_append]
    refine ⟨fun d hd => ⟨List.all_eq_true.1 hplain d hd, ?_⟩, fun d hd => ?_⟩
    · rintro rfl
      rcases Naming.isWordText_iff.1 hname _ hd with h | h <;> simp at h
    · simpa using List.all_eq_true.1 hrest d hd
  have hbody : ∀ d ∈ (c.className ++ " \x7bnode\x7d failed validation").toList,
      d ≠ '"' ∧ d ≠ '\\' ∧ d ∉ Text.lineBreaks := by
    intro d hd
    obtain ⟨hquote, hbreak, -⟩ := Text.not_mem_of_isPlainChar (hescape d hd).1
    refine ⟨?_, (hescape d hd).2, hbreak⟩
    rintro rfl
    simp [Text.quotes] at hquote
  have hstart : "    raise ValidationError(f\"" = "    raise ValidationError(" ++ "f\"" := by decide
  have hend : " \x7bnode\x7d failed validation\", violations)"
      = " \x7bnode\x7d failed validation" ++ ("\"" ++ ", violations)") := by decide
  rw [hstart, hend, ← String.append_assoc, ← String.append_assoc,
    @String.append_assoc _ c.className]
  refine Shows.append_plain ⟨_, Text.reads_template (by decide) hbody, ?_⟩ (by decide)
  rw [List.filterMap_append, Text.filterMap_text?_map_char]
  rfl

theorem textsOf?_validateRoutine (hnames : c.PlainNames)
    (hname : Naming.isWordText c.className = true) :
    textsOf? ((validateRoutine options c).undocumented.lines "") = some [] := by
  have hcall : isPlain ("" ++ "    " ++ ("violations = " ++ c.violationsFunction
      ++ "(node, graph)")) = true := by
    simp only [Text.isPlain_append, hnames.violationsFunction]
    decide
  have hguard : isPlain ("" ++ "    " ++ "if violations:") = true := by decide
  have hraise : Text.texts? ("" ++ "    " ++ ("    raise ValidationError(f\"" ++ c.className
      ++ " \x7bnode\x7d failed validation\", violations)")) = some [] :=
    ((shows_failure hname).after (by decide)).texts?
  unfold validateRoutine
  refine textsOf?_function (by decide) ⟨?_, hnames.validateFunction, ?_, ?_⟩ ?_
  · dsimp only
    decide
  · dsimp only
    decide
  · dsimp only
    decide
  · simp only [List.map_cons, List.map_nil, textsOf?, (Shows.plain hcall).texts?,
      (Shows.plain hguard).texts?, hraise]
    rfl

theorem textsOf?_validationModule (hspelled : ∀ c ∈ classes, c.Spelled) :
    textsOf? (validationModule options classes).code
      = some (classes.flatMap ClassModel.rulesTexts) := by
  refine textsOf?_code ⟨?_, ?_⟩ ?_
  · simp only [validationModule, List.forall_mem_cons, List.mem_nil_iff, false_implies,
      implies_true, and_true]
    refine plain_library (by decide) ?_
    split_ifs <;> decide
  · simp [validationModule]
  · have hrules : textsOf? (definitionLines (classes.map fun c => .assignment (rulesAssignment c)))
        = some (classes.flatMap ClassModel.rulesTexts) :=
      textsOf?_definitionLines fun c hc =>
        textsOf?_rulesAssignment (hspelled c hc).plainNames.rulesConstant
    have hroutines : textsOf? (definitionLines (classes.flatMap fun c =>
        [.function (violationsRoutine options c), .function (validateRoutine options c)]))
        = some [] := by
      rw [definitionLines, List.flatMap_assoc]
      refine textsOf?_flatMap_nil fun c hc => ?_
      have hnames := (hspelled c hc).plainNames
      have hvalidate := textsOf?_definitionLines_singleton
        (d := .function (validateRoutine options c))
        (textsOf?_validateRoutine hnames (hspelled c hc).names.className)
      exact textsOf?_definitionLines_cons (d := .function (violationsRoutine options c))
        (textsOf?_violationsRoutine hnames) hvalidate
    rw [← List.append_nil (classes.flatMap _)]
    refine textsOf?_definitionLines_append hrules ?_
    split_ifs
    · exact hroutines
    · rfl

/-! ## Builders -/

theorem shows_rule (hconstant : isPlain c.rulesConstant = true) (name : String) :
    Shows (c.rulesConstant ++ "[" ++ Text.quoted name ++ "]") [name] :=
  ((Shows.constant name).after (Text.opensConstant_append hconstant (by decide))).append_plain
    (by decide)

theorem shows_datatype (datatype : Option String) :
    Shows ((datatype.map Text.quoted).getD "None") datatype.toList := by
  rcases datatype with _ | iri
  · exact .plain (by decide)
  · exact .constant iri

/-- The call of a setter has the accessor and the datatype of the property. -/
theorem exists_setterCall (options : Options) (hnames : c.PlainNames)
    (htype : isPlain p.type.name = true) :
    ∃ parameters call, (setter options c p).parameters = "self" :: parameters
      ∧ (setter options c p).body = [call] ∧ (∀ q ∈ parameters, isPlain q = true)
      ∧ Shows call (p.name :: p.type.datatype.toList) := by
  obtain ⟨verb, hverb, hplain⟩ : ∃ verb, (if p.isList then "_add" else "_set") = verb
      ∧ isPlain ("return self." ++ verb) = true := by
    refine ⟨_, rfl, ?_⟩
    split_ifs <;> decide
  have hrule {kind : String} (hkind : Text.opensConstant kind = true) :
      Shows ("return self." ++ verb ++ kind
        ++ (c.rulesConstant ++ "[" ++ Text.quoted p.name ++ "]")) [p.name] :=
    (shows_rule hnames.rulesConstant p.name).after (Text.opensConstant_append hplain hkind)
  have hnode : Shows ("return self." ++ verb ++ "_object("
      ++ (c.rulesConstant ++ "[" ++ Text.quoted p.name ++ "]") ++ ", value)") [p.name] :=
    (hrule (by decide)).append_plain (by decide)
  have hliteral (datatype : Option String) : Shows ("return self." ++ verb ++ "_literal("
      ++ (c.rulesConstant ++ "[" ++ Text.quoted p.name ++ "]") ++ ", value, "
      ++ (datatype.map Text.quoted).getD "None") (p.name :: datatype.toList) :=
    (hrule (by decide)).append_after (by decide) (shows_datatype datatype)
  have hvalue : isPlain ("value: " ++ p.type.name) = true := by
    rw [Text.isPlain_append, htype]
    decide
  unfold setter
  rw [hverb]
  rcases hp : p.type with ⟨type, datatype⟩ | ⟨className, moduleName⟩ | _
  · rw [hp] at hvalue
    dsimp only
    split_ifs
    · refine ⟨_, _, rfl, rfl, ?_, (hliteral datatype).append_plain (b := ", lang)") (by decide)⟩
      exact List.forall_mem_cons.2 ⟨hvalue, by decide⟩
    · refine ⟨_, _, rfl, rfl, ?_, (hliteral datatype).append_plain (b := ")") (by decide)⟩
      exact List.forall_mem_singleton.2 hvalue
  · exact ⟨_, _, rfl, rfl, by decide, hnode⟩
  · exact ⟨_, _, rfl, rfl, by decide, hnode⟩

theorem textsOf?_setter (options : Options) (hnames : c.PlainNames)
    (hname : isPlain p.name = true) (htype : isPlain p.type.name = true) :
    textsOf? ((setter options c p).undocumented.lines "    ")
      = some (p.name :: p.type.datatype.toList) := by
  obtain ⟨parameters, call, hparameters, hbody, hplain, hcall⟩ :=
    exists_setterCall options hnames htype
  refine textsOf?_function (by decide) ⟨?_, hname, ?_, ?_⟩ ?_
  · exact List.forall_mem_nil _
  · rw [hparameters, List.forall_mem_cons]
    exact ⟨by decide, hplain⟩
  · rintro _ ⟨⟩
    exact hnames.builderClass
  · rw [hbody]
    exact textsOf?_body (by decide) hcall

theorem textsOf?_validateMethod (hnames : c.PlainNames) :
    textsOf? ((validateMethod options c).undocumented.lines "    ") = some [] := by
  unfold validateMethod
  refine textsOf?_plainFunction (by decide) ⟨?_, ?_, ?_, ?_⟩ ?_
  · dsimp only
    decide
  · dsimp only
    decide
  · dsimp only
    decide
  · rintro _ ⟨⟩
    exact hnames.builderClass
  · rw [List.forall_mem_cons, List.forall_mem_singleton, Text.isPlain_append,
      hnames.validateFunction]
    decide

theorem textsOf?_builder (h : c.Spelled) :
    textsOf? (builder options c).undocumented.lines = some c.builderTexts := by
  have hnames := h.plainNames
  have hiri : textsOf? (Assignment.lines "    "
      { name := "CLASS_IRI", value := .inline (Text.quoted c.iri) }) = some [c.iri] :=
    textsOf?_inline (by decide) (by decide) (by decide) (.constant c.iri)
  have hsetters := textsOf?_methods fun p (hp : p ∈ c.properties) =>
    textsOf?_setter options hnames (isPlain_of_isWordText (h.properties p hp))
      (isPlain_of_isWordText (h.types p hp))
  have hvalidate : textsOf? (methodLines ((if options.validationEnabled
      then [validateMethod options c] else []).map Function.undocumented)) = some [] := by
    split_ifs
    · exact textsOf?_method (textsOf?_validateMethod hnames)
    · rfl
  have htexts : c.builderTexts = [c.iri] ++ []
      ++ (c.properties.flatMap (fun p => p.name :: p.type.datatype.toList) ++ []) := by
    simp [ClassModel.builderTexts]
  rw [htexts]
  exact textsOf?_class hnames.builderClass (List.forall_mem_singleton.2 (by decide))
    (textsOf?_append hiri textsOf?_nil) (textsOf?_methods_append hsetters hvalidate)

theorem textsOf?_scope (hspelled : ∀ c ∈ classes, c.Spelled)
    (hscope : isPlain options.scopeClass = true) :
    textsOf? (scope options classes).undocumented.lines = some [] := by
  have hmethod : ∀ c ∈ classes, textsOf? (Function.undocumented
      { name := c.builderName, parameters := ["self", "iri=None"], result := some c.builderClass
        body := ["return " ++ c.builderClass ++ "(self, iri)"] } |>.lines "    ") = some [] := by
    intro c hc
    have hnames := (hspelled c hc).plainNames
    refine textsOf?_plainFunction (by decide) ⟨?_, hnames.builderName, ?_, ?_⟩ ?_
    · exact List.forall_mem_nil _
    · dsimp only
      decide
    · rintro _ ⟨⟩
      exact hnames.builderClass
    · rw [List.forall_mem_singleton]
      simp only [Text.isPlain_append, hnames.builderClass]
      decide
  have hmethods := textsOf?_methods hmethod
  rw [List.flatMap_eq_nil_iff.2 fun _ _ => rfl] at hmethods
  have hbase : isPlain "InstanceScope" = true := by decide
  rw [← List.append_nil []]
  exact textsOf?_class hscope (List.forall_mem_singleton.2 hbase) textsOf?_nil hmethods

theorem textsOf?_entry (hscope : isPlain options.scopeClass = true)
    (hname : isPlain options.dslName = true) :
    textsOf? ((entry options).undocumented.lines "") = some [] := by
  unfold entry
  refine textsOf?_plainFunction (by decide) ⟨?_, hname, ?_, ?_⟩ ?_
  · dsimp only
    decide
  · rw [List.forall_mem_singleton]
    simp only [Text.isPlain_append, hscope]
    decide
  · dsimp only
    decide
  · rw [List.forall_mem_cons]
    simp only [Text.isPlain_append, hscope]
    decide

theorem textsOf?_dslModule (hspelled : ∀ c ∈ classes, c.Spelled)
    (hscope : isPlain options.scopeClass = true) (hname : isPlain options.dslName = true) :
    textsOf? (dslModule options classes).code
      = some (classes.flatMap ClassModel.builderTexts) := by
  refine textsOf?_code ⟨?_, ?_⟩ ?_
  · have himported : ∀ name ∈ validationNames options classes, isPlain name = true := by
      unfold validationNames
      rw [List.forall_mem_append, List.forall_mem_map]
      refine ⟨fun c hc => (hspelled c hc).plainNames.rulesConstant, ?_⟩
      split_ifs
      · exact List.forall_mem_map.2 fun c hc => (hspelled c hc).plainNames.validateFunction
      · exact List.forall_mem_nil _
    simp only [dslModule, List.forall_mem_cons, List.mem_nil_iff, false_implies, implies_true,
      and_true]
    refine ⟨plain_library (by decide) (by decide),
      ⟨plain_library (by decide) (by decide), plain_library (by decide) (by decide)⟩,
      plain_library (by decide) (by decide), ?_⟩
    split_ifs
    · exact List.forall_mem_nil _
    · exact List.forall_mem_singleton.2 (plain_sibling (by decide) himported)
  · simp [dslModule]
  · have hbuilders : textsOf? (definitionLines (classes.map fun c => .cls (builder options c)))
        = some (classes.flatMap ClassModel.builderTexts) :=
      textsOf?_definitionLines fun c hc => textsOf?_builder (hspelled c hc)
    have hentry := textsOf?_definitionLines_singleton (d := .function (entry options))
      (textsOf?_entry hscope hname)
    have hscopes := textsOf?_definitionLines_cons (d := .cls (scope options classes))
      (textsOf?_scope hspelled hscope) hentry
    rw [← List.append_nil (classes.flatMap _)]
    exact textsOf?_definitionLines_append hbuilders hscopes

end Modules

/-! ## The texts of a package -/

/-- The super classes of a resolved class are emitted. -/
theorem Ontology.emittedSupers_isEmpty {o : Ontology} {c : ClassModel} (hc : c ∈ o.resolve.1) :
    (emittedSupers (moduleTable o.resolve.1) c).isEmpty = c.supers.isEmpty := by
  rw [Bool.eq_iff_iff, List.isEmpty_iff, List.isEmpty_iff, emittedSupers,
    List.filterMap_eq_nil_iff]
  refine ⟨fun h => List.eq_nil_iff_forall_not_mem.2 fun name hname => ?_, fun h => by simp [h]⟩
  obtain ⟨s, hs, rfl⟩ := exists_super_of_mem_supers hc hname
  have hs' := o.mem_resolve_of_mem_superModels hc hs
  have hnone := h s.className hname
  rw [Option.map_eq_none_iff, moduleTable, Assoc.get?_foldl_put, Option.map_eq_none_iff,
    List.find?_eq_none] at hnone
  exact hnone s (List.mem_reverse.2 hs') (by simp)

theorem Ontology.listed_of_mem_referenced {o : Ontology} {c : ClassModel} (hc : c ∈ o.resolve.1) :
    ∀ reference ∈ c.referenced, Listed o.resolve.1 reference := by
  intro reference href
  obtain ⟨p, hp, htype⟩ := exists_property_of_mem_referenced reference href
  obtain ⟨-, -, -, -, t, ht, -, hnames⟩ := exists_class_of_object hc hp htype
  exact ⟨t, ht, hnames⟩

/-- The module of a name has these text constants in this order, and its lines are not broken. -/
def Report.HasTexts (r : Report) (options : Options) (name : String) (texts : List String) : Prop :=
  ∃ m, r.module? options name = some m ∧ m.code.Sublist m.lines
    ∧ (∀ line ∈ m.code, ∀ d ∈ line.toList, d ∉ Text.lineBreaks) ∧ textsOf? m.code = some texts

theorem Report.hasTexts_of_textsOf? {r : Report} {options : Options} {name : String}
    {m : SourceModule} {texts : List String} (hm : r.module? options name = some m)
    (h : textsOf? m.code = some texts) : r.HasTexts options name texts :=
  ⟨m, hm, m.code_sublist, Text.not_mem_lineBreaks_of_textsOf? h, h⟩

/-- A text and a tuple of texts are written on one line and are read as what they are. In an emitted
package, the text constants of the interfaces, the wrappers, the rules and the builders are the
texts of the resolved classes, and the keywords of a rule have the values of the property. -/
theorem emitted_texts [Platform] {source : String} {context : Option Json} {g : Rdf.Graph}
    {o : Ontology} {document : Json} {options : Options} {now : String} {report : Report}
    {read written : List Notice}
    (hread : (Ontology.ofGraph source context g).outcome = (.ok o, read))
    (hoptions : Options.ofJson document = .ok options)
    (hrun : (generate o options none now).outcome = (.ok report, written)) :
    (∀ s : String, (∀ d ∈ (Text.quoted s).toList, d ∉ Text.lineBreaks)
        ∧ Text.pieces? (Text.quoted s) = some [.text s])
      ∧ (∀ ts : List String, (∀ d ∈ (Constant.texts ts).source.toList, d ∉ Text.lineBreaks)
        ∧ (Text.pieces? (Constant.texts ts).source).bind operand? = some (.tuple (ts.map .text)))
      ∧ report.classes = o.resolve.1
      ∧ (∀ c ∈ report.classes, report.HasTexts options c.moduleName c.interfaceTexts
        ∧ report.HasTexts options c.wrapperModule c.wrapperTexts)
      ∧ report.HasTexts options "validation" (report.classes.flatMap ClassModel.rulesTexts)
      ∧ (∀ p, (Text.pieces? (ruleExpression p)).bind (call? "PropertyRule")
        = some ((ruleKeywords p).map fun a => (a.1, a.2.operand)))
      ∧ report.HasTexts options "dsl" (report.classes.flatMap ClassModel.builderTexts) := by
  have hclasses : (o.classes.map DeclaredClass.iri).Nodup := by
    obtain ⟨shapes, terms, -, -, rfl⟩ := Ontology.ofGraph_ok_iff.1 hread
    exact classesOf_iris_nodup g shapes
  have hspelled : ∀ c ∈ o.resolve.1, c.Spelled := fun c hc =>
    Ontology.spelled_of_mem_resolve (Ontology.isWordText_of_mem_classes hread) hc
  have hname : isPlain options.dslName = true :=
    isPlain_of_isWordText (Options.isWordText_of_isDslName (Options.isDslName_of_ofJson hoptions))
  have hscope : isPlain options.scopeClass = true := by
    rw [Options.scopeClass, Text.isPlain_append,
      isPlain_of_isWordText (Naming.isWordText_toPascalCase _)]
    decide
  obtain ⟨generators, files, -, hgenerators, hemit, hreport, -⟩ := generate_ok_iff.1 hrun
  cases hgenerators
  have hmodels : report.classes = o.resolve.1 := by rw [hreport]
  have hholds : Holds (report.module? options) options o.resolve.1 := by
    refine Report.holds_of_emit (Ontology.namesApart_resolve hclasses) ?_
    rw [hemit, hreport]
  rw [hmodels]
  refine ⟨fun s => ?_, fun ts => ?_, rfl, fun c hc => ⟨?_, ?_⟩, ?_, fun p => ?_, ?_⟩
  · have hpieces := (Text.reads_quoted s).pieces?
    exact ⟨Text.not_mem_lineBreaks_of_pieces? hpieces, hpieces⟩
  · obtain ⟨pieces, hreads, hspells⟩ := denotes_texts ts
    refine ⟨Text.not_mem_lineBreaks_of_pieces? hreads.pieces?, ?_⟩
    rw [hreads.pieces?]
    exact hspells.reads
  · refine Report.hasTexts_of_textsOf? (hholds _ _ (.interface hc)) ?_
    refine textsOf?_interfaceModule hspelled hc (Ontology.listed_of_mem_referenced hc) ?_
    rw [interfaceProperties, Ontology.emittedSupers_isEmpty hc]
    rfl
  · exact Report.hasTexts_of_textsOf? (hholds _ _ (.wrapper hc))
      (textsOf?_wrapperSource hspelled hc (Ontology.listed_of_mem_referenced hc))
  · exact Report.hasTexts_of_textsOf? (hholds _ _ .validation) (textsOf?_validationModule hspelled)
  · obtain ⟨pieces, hreads, hcall, -⟩ := exists_ruleCall p
    rw [hreads.pieces?]
    exact hcall
  · exact Report.hasTexts_of_textsOf? (hholds _ _ .dsl)
      (textsOf?_dslModule hspelled hscope hname)

/-- A shape whose texts have quotes, a backslash, line breaks and a control character. -/
def quotedGraph : Rdf.Graph where
  triples :=
    [⟨.iri "ps", .iri Rdf.rdfType, .iri (Rdf.sh "NodeShape")⟩,
     ⟨.iri "ps", .iri (Rdf.sh "targetClass"), .iri "http://ex.org/P"⟩,
     ⟨.iri "ps", .iri (Rdf.sh "property"), .iri "q"⟩,
     ⟨.iri "q", .iri (Rdf.sh "path"), .iri "http://ex.org/it's"⟩,
     ⟨.iri "q", .iri (Rdf.sh "pattern"), .literal ⟨"'\"\\\n", none, none⟩⟩,
     ⟨.iri "q", .iri (Rdf.sh "hasValue"), .literal ⟨"\u2028#", none, none⟩⟩,
     ⟨.iri "q", .iri (Rdf.sh "in"), .iri "list"⟩,
     ⟨.iri "list", .iri Rdf.rdfFirst, .literal ⟨"\x00,)", none, none⟩⟩,
     ⟨.iri "list", .iri Rdf.rdfRest, .iri Rdf.rdfNil⟩]

def quotedOntology : Ontology where
  shapes :=
    [⟨"ps", "http://ex.org/P",
      [{ path := "http://ex.org/it's", name := "it's"
         constraints := { pattern := some "'\"\\\n", inValues := some ["\x00,)"],
                          hasValue := some "\u2028#" } }]⟩]
  context := {}
  classes := [⟨"http://ex.org/P", "P", []⟩]
  source := "shapes"

section

attribute [local instance] Platform.standard

/-- The rules of its package have these texts. -/
theorem quoted_emitted_texts : ∃ report written,
    (Ontology.ofGraph "shapes" none quotedGraph).outcome = (.ok quotedOntology, [])
      ∧ Options.ofJson registryOptions.toJson = .ok registryOptions
      ∧ (generate quotedOntology registryOptions none "").outcome = (.ok report, written)
      ∧ report.HasTexts registryOptions "validation"
        ["it_s", "it_s", "http://ex.org/it's", "str", "'\"\\\n", "\x00,)", "\u2028#"] := by
  have hread : (Ontology.ofGraph "shapes" none quotedGraph).outcome = (.ok quotedOntology, []) :=
    Ontology.ofGraph_of_shapes (by decide +kernel) (by decide +kernel) rfl rfl
  have hoptions : Options.ofJson registryOptions.toJson = .ok registryOptions := by
    decide +kernel
  have hready : quotedOntology.isWalkable = true
      ∧ checkDslNames registryOptions quotedOntology.evaluate = .ok ()
      ∧ IsWritten registryOptions quotedOntology.evaluate := by
    decide +kernel
  have htexts : quotedOntology.evaluate.flatMap ClassModel.rulesTexts
      = ["it_s", "it_s", "http://ex.org/it's", "str", "'\"\\\n", "\x00,)", "\u2028#"] := by
    decide +kernel
  rw [← Ontology.resolve_eq_evaluate] at hready htexts
  obtain ⟨report, written, hrun⟩ := generate_default_iff.2 hready
  obtain ⟨-, -, hclasses, -, hrules, -⟩ := emitted_texts hread hoptions hrun
  rw [hclasses, htexts] at hrules
  exact ⟨report, written, hread, hoptions, hrun, hrules⟩

end

end ShapeForge
