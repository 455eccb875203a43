import ShapeForge.Package.Basic
import ShapeForge.Platform.Standard
import ShapeForge.Proofs.Expressions
import ShapeForge.Proofs.IntegerBounds
import ShapeForge.Proofs.SourceNumbers

/-!
# The values of emitted rules

The rule of a property is written as a call, and the call makes a rule again when the module of
rules is loaded: its operands have values (`Emission.Operand.value?`), and what is not given has a
default (`Emission.ruleOf?`).

The rule that is made is the one of the property unless a bound is infinite or not a number: such a
bound is written as a word, and the module binds no such name (`Ontology.rule_evaluates_iff`).
-/

namespace ShapeForge

/-- The counts of constraints, of values and of characters. -/
def Constraints.counts (c : Constraints) : List Int :=
  c.minCount :: [c.maxCount, c.minLength, c.maxLength].filterMap id

namespace Emission

/-! ## Evaluation -/

namespace Operand

mutual

/-- The value of an operand. Words other than numbers have none. -/
def value? : Operand → Option Constant
  | .text value => some (.text value)
  | .word spelling => (Numeral.number? spelling).map .number
  | .tuple items => (values? items).map .tuple

/-- The values of operands. -/
def values? : List Operand → Option (List Constant)
  | [] => some []
  | item :: items => item.value?.bind fun value => (values? items).map (value :: ·)

end

end Operand

namespace Constant

/-- The text of a constant. -/
def text? : Constant → Option String
  | .text value => some value
  | _ => Option.none

/-- The number of a constant. -/
def number? : Constant → Option Bound
  | .number value => some value
  | _ => Option.none

/-- The integer of a constant. -/
def integer? : Constant → Option Int
  | .number (.int value) => some value
  | _ => Option.none

/-- The texts of a tuple. -/
def texts? : Constant → Option (List String)
  | .tuple items => items.mapM text?
  | _ => Option.none

end Constant

/-- The values of the arguments of a call. -/
def argumentValues? (arguments : List (String × Operand)) : Option (List (String × Constant)) :=
  arguments.mapM fun a => a.2.value?.map (a.1, ·)

/-- The rule that is made from arguments. No argument is given twice, and none is unknown. -/
def ruleOf? (arguments : List (String × Constant)) : Option Rule := do
  guard (arguments.map Prod.fst).Nodup
  guard (∀ key ∈ arguments.map Prod.fst, key ∈ ruleParameters)
  let name ← (Assoc.get? "name" arguments).bind Constant.text?
  let path ← (Assoc.get? "path" arguments).bind Constant.text?
  let valueType ← (Assoc.get? "value_type" arguments).mapM Constant.text?
  let minCount ← (Assoc.get? "min_count" arguments).mapM Constant.integer?
  let maxCount ← (Assoc.get? "max_count" arguments).mapM Constant.integer?
  let minLength ← (Assoc.get? "min_length" arguments).mapM Constant.integer?
  let maxLength ← (Assoc.get? "max_length" arguments).mapM Constant.integer?
  let pattern ← (Assoc.get? "pattern" arguments).mapM Constant.text?
  let flags ← (Assoc.get? "flags" arguments).mapM Constant.text?
  let inValues ← (Assoc.get? "in_values" arguments).mapM Constant.texts?
  let minInclusive ← (Assoc.get? "min_inclusive" arguments).mapM Constant.number?
  let maxInclusive ← (Assoc.get? "max_inclusive" arguments).mapM Constant.number?
  let minExclusive ← (Assoc.get? "min_exclusive" arguments).mapM Constant.number?
  let maxExclusive ← (Assoc.get? "max_exclusive" arguments).mapM Constant.number?
  let hasValue ← (Assoc.get? "has_value" arguments).mapM Constant.text?
  return {
    name, path
    valueType := .ofName (valueType.getD "str")
    constraints := {
      minCount := minCount.getD 0
      maxCount, minLength, maxLength, pattern, flags, inValues
      minInclusive, maxInclusive, minExclusive, maxExclusive, hasValue } }

/-- The rule that a source text makes. -/
def evaluateRule? (source : String) : Option Rule :=
  (((Text.pieces? source).bind (call? "PropertyRule")).bind argumentValues?).bind ruleOf?

theorem keys_filterMap_sublist {α : Type} (entries : List (String × Option α)) :
    ((entries.filterMap fun e => e.2.map (e.1, ·)).map Prod.fst).Sublist
      (entries.map Prod.fst) := by
  induction entries with
  | nil => exact .refl _
  | cons e entries ih =>
    rcases e with ⟨key, _ | value⟩
    · exact ih.cons key
    · exact ih.cons_cons key

/-- Where no key stands twice, what is left out has no value and the rest has its own. -/
theorem get?_filterMap {α : Type} {entries : List (String × Option α)}
    (hnodup : (entries.map Prod.fst).Nodup) : ∀ e ∈ entries,
      Assoc.get? e.1 (entries.filterMap fun e => e.2.map (e.1, ·)) = e.2 := by
  rintro ⟨key, value⟩ he
  rcases value with _ | value
  · refine Assoc.get?_eq_none_iff.2 fun hkey => ?_
    obtain ⟨a, ha, rfl⟩ := List.mem_map.1 hkey
    obtain ⟨f, hf, hvalue⟩ := List.mem_filterMap.1 ha
    obtain ⟨value, hsome, rfl⟩ := Option.map_eq_some_iff.1 hvalue
    rw [List.inj_on_of_nodup_map hnodup hf he rfl] at hsome
    cases hsome
  · have hpairwise := List.pairwise_map.1 (hnodup.sublist (keys_filterMap_sublist entries))
    exact Assoc.get?_of_mem hpairwise (List.mem_filterMap.2 ⟨_, he, rfl⟩)

theorem nodup_ruleParameters : ruleParameters.Nodup := by decide

/-- From the keywords of a property its rule is made. -/
theorem ruleOf?_ruleKeywords (p : PropertyModel) : ruleOf? (ruleKeywords p) = some p.rule := by
  have htext (x : Option String) : (x.map Constant.text).mapM Constant.text? = some x := by
    cases x <;> rfl
  have htexts (x : Option (List String)) :
      (x.map Constant.texts).mapM Constant.texts? = some x := by
    rcases x with _ | ts
    · rfl
    · have hitems : (ts.map Constant.text).mapM Constant.text? = some (ts.map id) :=
        mapM_map_eq_some fun t _ => rfl
      rw [List.map_id] at hitems
      simp [Constant.texts, Constant.texts?, hitems]
  have hnumber (x : Option Bound) : (x.map Constant.number).mapM Constant.number? = some x := by
    cases x <;> rfl
  have hinteger (x : Option ℤ) :
      (x.map fun n => Constant.number (.int n)).mapM Constant.integer? = some x := by
    cases x <;> rfl
  have hcount (n : ℤ) : (if n = 0 then none else some (Constant.number (.int n))).mapM
      Constant.integer? = some (if n = 0 then none else some n) := by
    split_ifs <;> rfl
  have hdefault (n : ℤ) : (if n = 0 then none else some n).getD 0 = n := by
    split_ifs with h
    · exact h.symm
    · rfl
  have hkeys : ((ruleKeywords p).map Prod.fst).Sublist ruleParameters :=
    keys_filterMap_sublist (ruleEntries p)
  have hnodup : ((ruleKeywords p).map Prod.fst).Nodup := nodup_ruleParameters.sublist hkeys
  have hknown : ∀ key ∈ (ruleKeywords p).map Prod.fst, key ∈ ruleParameters := fun key hkey =>
    hkeys.subset hkey
  have hget : ∀ e ∈ ruleEntries p, Assoc.get? e.1 (ruleKeywords p) = e.2 :=
    get?_filterMap nodup_ruleParameters
  simp only [ruleEntries, ruleParameters, List.zip_cons_cons, List.zip_nil_right,
    List.forall_mem_cons] at hget
  unfold ruleOf?
  simp only [hget, htext, htexts, hnumber, hinteger, hcount, guard, if_pos hnodup, if_pos hknown]
  rw [PropertyModel.rule]
  refine congrArg some ?_
  simp [hdefault]

/-! ## The values of operands -/

theorem Operand.values?_texts (ts : List String) :
    values? (ts.map .text) = some (ts.map .text) := by
  induction ts with
  | nil => rfl
  | cons t ts ih => simp [values?, value?, ih]

/-- A constant of a rule is read back unless it is a number that is not. -/
theorem Constant.IsRuleValue.value?_operand {c : Constant} (h : c.IsRuleValue)
    (hnumber : ∀ n, c = .number n → Numeral.number? n.source = some n) :
    c.operand.value? = some c := by
  cases h with
  | text s => rfl
  | number n =>
    rw [operand, Operand.value?, hnumber n rfl]
    rfl
  | texts ts =>
    rw [operand_texts, Operand.value?, Operand.values?_texts]
    rfl

theorem argumentValues?_of_forall {keywords : List (String × Constant)}
    (h : ∀ a ∈ keywords, a.2.operand.value? = some a.2) :
    argumentValues? (keywords.map fun a => (a.1, a.2.operand)) = some keywords := by
  have hvalues := mapM_map_eq_some (f := fun a => Option.map (Prod.mk a.1) (Operand.value? a.2))
    (g := fun a => (a.1, a.2.operand)) (h := id) fun a (ha : a ∈ keywords) => by rw [h a ha]; rfl
  rwa [List.map_id] at hvalues

theorem isSome_of_argumentValues? {arguments : List (String × Operand)}
    {values : List (String × Constant)} (h : argumentValues? arguments = some values) :
    ∀ a ∈ arguments, ∃ value, a.2.value? = some value := by
  induction arguments generalizing values with
  | nil => exact List.forall_mem_nil _
  | cons a arguments ih =>
    rw [argumentValues?, List.mapM_cons, Option.bind_eq_bind, Option.bind_eq_some_iff] at h
    obtain ⟨first, hfirst, h⟩ := h
    obtain ⟨rest, hrest, -⟩ := Option.bind_eq_some_iff.1 h
    obtain ⟨value, hvalue, -⟩ := Option.map_eq_some_iff.1 hfirst
    exact List.forall_mem_cons.2 ⟨⟨value, hvalue⟩, ih hrest⟩

/-- The numbers of a rule are its bounds and counts. -/
theorem forall_ruleKeywords_number_iff {p : PropertyModel} {P : Bound → Prop} (hzero : P (.int 0)) :
    (∀ key n, (key, Constant.number n) ∈ ruleKeywords p → P n) ↔
      (∀ b ∈ p.constraints.bounds, P b) ∧ ∀ n ∈ p.constraints.counts, P (.int n) := by
  have hentries : (∀ key n, (key, Constant.number n) ∈ ruleKeywords p → P n) ↔
      ∀ e ∈ ruleEntries p, ∀ n, e.2 = some (.number n) → P n := by
    constructor
    · intro h e he n hn
      exact h e.1 n (List.mem_filterMap.2 ⟨e, he, by rw [hn]; rfl⟩)
    · intro h key n hn
      obtain ⟨e, he, hmap⟩ := List.mem_filterMap.1 hn
      obtain ⟨value, hvalue, heq⟩ := Option.map_eq_some_iff.1 hmap
      exact h e he n (hvalue.trans (congrArg some (Prod.mk.inj heq).2))
  have hgiven (s : String) : (∀ n, some (Constant.text s) = some (.number n) → P n) ↔ True := by
    simp
  have htext (x : Option String) : (∀ n, x.map Constant.text = some (.number n) → P n) ↔ True := by
    simp
  have htexts (x : Option (List String)) :
      (∀ n, x.map Constant.texts = some (.number n) → P n) ↔ True := by
    simp [Constant.texts]
  have hnumber (x : Option Bound) :
      (∀ n, x.map Constant.number = some (.number n) → P n) ↔ ∀ b ∈ x, P b := by
    simp
  have hinteger (x : Option ℤ) :
      (∀ n, x.map (fun i => Constant.number (.int i)) = some (.number n) → P n) ↔
        ∀ i ∈ x, P (.int i) := by
    simp
  have hcount (m : ℤ) : (∀ n, (if m = 0 then none else some (Constant.number (.int m)))
      = some (.number n) → P n) ↔ P (.int m) := by
    split_ifs with h
    · simpa [h] using hzero
    · simp
  have hfilter {α : Type} {Q : α → Prop} (xs : List (Option α)) :
      (∀ a ∈ xs.filterMap id, Q a) ↔ ∀ x ∈ xs, ∀ a ∈ x, Q a := by
    simp only [List.mem_filterMap, id]
    constructor
    · intro h x hx a ha
      exact h a ⟨x, hx, ha⟩
    · rintro h a ⟨x, hx, ha⟩
      exact h x hx a ha
  rw [hentries]
  simp only [ruleEntries, ruleParameters, List.zip_cons_cons, List.zip_nil_right,
    Constraints.bounds, Constraints.counts, List.forall_mem_cons, hfilter, hgiven, htext, htexts,
    hnumber, hinteger, hcount]
  tauto

end Emission

/-! ## The numbers of a document -/

theorem Decimal.canonical_of_toDouble? {x : Decimal} {d : Double} (h : x.toDouble? = some d) :
    d.Canonical := by
  rcases x with ⟨negative, c, e⟩ | negative | ⟨negative, signaling, payload⟩
  · obtain rfl := Option.some.inj h
    exact Double.canonical_ofDecimal negative c e
  · obtain rfl := Option.some.inj h
    trivial
  · rw [toDouble?, Option.ite_none_left_eq_some] at h
    obtain rfl := Option.some.inj h.2
    trivial

namespace Shape

theorem canonical_of_doubleOfText {text : String} {d : Double} (h : doubleOfText text = .ok d) :
    d.Canonical := by
  unfold doubleOfText at h
  split at h
  · rename_i heq
    obtain rfl := Except.ok.inj h
    exact Numeral.canonical_of_double? heq
  · cases h

theorem canonical_of_value [Rdf.Datatypes] {l : Rdf.Literal} {d : Double}
    (h : l.value = .double d) : d.Canonical := by
  unfold Rdf.Literal.value at h
  split at h
  · cases h
  · split at h
    · unfold Rdf.valueOf at h
      split at h
      · rcases hn : Numeral.integer? l.lexical with _ | n <;> simp [hn] at h
      · rcases hn : Numeral.double? l.lexical with _ | e
        · simp [hn] at h
        · obtain rfl : e = d := by simpa [hn] using h
          exact Numeral.canonical_of_double? hn
      · rcases hn : Decimal.read? l.lexical with _ | n <;> simp [hn] at h
      all_goals cases h
    · rename_i datatype _ _ _
      rcases ht : Rdf.Datatypes.text? datatype l.lexical with _ | text <;> simp [ht] at h

theorem canonical_of_doubleOf [Rdf.Datatypes] {l : Rdf.Literal} {d : Double}
    (h : doubleOf l.value = .ok d) : d.Canonical := by
  rcases hl : l.value with n | e | x | b | text | lexical <;> rw [hl, doubleOf] at h
  · split at h
    · cases h
    · obtain rfl := Except.ok.inj h
      exact Double.canonical_ofRatio one_pos _
  · obtain rfl := Except.ok.inj h
    exact canonical_of_value hl
  · split at h
    · rename_i hx
      obtain rfl := Except.ok.inj h
      exact Decimal.canonical_of_toDouble? hx
    · cases h
  · obtain rfl := Except.ok.inj h
    exact Double.canonical_ofRatio one_pos _
  · exact canonical_of_doubleOfText h
  · cases h

/-- A bound of a document is a double that is written with the greatest mantissa. -/
theorem canonical_of_doubleField? [Rdf.Datatypes] {g : Rdf.Graph} {text name : String}
    {node : Rdf.Term}
    {d : Double} (h : doubleField? g text node name = .ok (some d)) : d.Canonical := by
  unfold doubleField? at h
  rcases hfield : field? g node name with _ | t
  · simp [hfield] at h
  · simp only [hfield] at h
    split at h
    · rename_i hread
      obtain rfl := Option.some.inj (Except.ok.inj h)
      rcases t with iri | label | l <;> simp only [readTerm] at hread
      · exact canonical_of_doubleOfText hread
      · exact canonical_of_doubleOfText hread
      · exact canonical_of_doubleOf hread
    · cases h
    · cases h

theorem canonical_of_mem_bounds [Rdf.Datatypes] {g : Rdf.Graph} {text : String} {node : Rdf.Term}
    {c : Constraints} (h : constraintsOf g text node = .ok c) :
    ∀ b ∈ c.bounds, ∃ d : Double, b = .double d ∧ d.Canonical := by
  have hbound (k : BoundKind) : ∀ b ∈ k.bound c, ∃ d : Double, b = .double d ∧ d.Canonical := by
    intro b hb
    obtain ⟨found, hfound, heq⟩ := bound_of_constraintsOf h k
    rw [heq] at hb
    obtain ⟨d, rfl, rfl⟩ := Option.map_eq_some_iff.1 hb
    exact ⟨d, rfl, canonical_of_doubleField? hfound⟩
  simp only [Constraints.bounds, List.mem_filterMap, id, List.mem_cons, List.not_mem_nil, or_false]
  rintro b ⟨x, rfl | rfl | rfl | rfl, hb⟩
  · exact hbound .minInclusive b hb
  · exact hbound .maxInclusive b hb
  · exact hbound .minExclusive b hb
  · exact hbound .maxExclusive b hb

end Shape

/-- Whether a number can be read back: it is finite and, as an integer, not too long. -/
def Bound.isReadable : Bound → Bool
  | .int n => (Numeral.digitsOf n).length ≤ Numeral.maxIntegerDigits
  | .double d => (Bound.double d).isFinite

theorem Bound.number?_source {b : Bound} (h : ∀ d, b = .double d → d.Canonical) :
    Numeral.number? b.source = if b.isReadable then some b else none := by
  rcases b with i | ⟨negative, m, q⟩ | negative | _
  · rw [source, Numeral.number?_toString]
    simp [isReadable]
  · rw [source, Double.number?_text (h _ rfl)]
    rfl
  · cases negative <;> decide
  · decide

namespace Emission

/-- The names of the module of rules have an underscore, up to five. -/
theorem mem_boundNames_validationModule {options : Options} {classes : List ClassModel}
    {name : String} (h : name ∈ (validationModule options classes).boundNames) :
    name ∈ validationImports ∨ '_' ∈ name.toList := by
  rw [SourceModule.boundNames, List.mem_append] at h
  rcases h with h | h
  · left
    have hnames : (if options.validationEnabled then ["ValidationError", "Violation",
        "shape_violations"] else []) ⊆ validationImports := by
      split_ifs
      · decide
      · exact List.nil_subset _
    rcases List.mem_cons.1 h with rfl | h
    · decide
    obtain ⟨i, hi, hname⟩ := List.mem_flatMap.1 h
    obtain rfl := List.mem_singleton.1 hi
    rcases List.mem_cons.1 hname with rfl | hname
    · decide
    · exact hnames hname
  · right
    obtain ⟨definition, hdefinition, hname⟩ := List.mem_filterMap.1 h
    rcases List.mem_append.1 hdefinition with hdefinition | hdefinition
    · obtain ⟨c, -, rfl⟩ := List.mem_map.1 hdefinition
      obtain rfl := Option.some.inj hname
      simp [rulesAssignment, ClassModel.rulesConstant]
    · split_ifs at hdefinition
      · obtain ⟨c, -, hdefinition⟩ := List.mem_flatMap.1 hdefinition
        rw [List.mem_cons, List.mem_singleton] at hdefinition
        rcases hdefinition with rfl | rfl
        · obtain rfl := Option.some.inj hname
          simp [violationsRoutine, ClassModel.violationsFunction]
        · obtain rfl := Option.some.inj hname
          simp [validateRoutine, ClassModel.validateFunction]
      · cases hdefinition

/-- The rule of a property stands in the module of rules. -/
theorem ruleExpression_mem_lines {options : Options} {classes : List ClassModel} {c : ClassModel}
    {p : PropertyModel} (hc : c ∈ classes) (hp : p ∈ c.properties) :
    "    " ++ (Text.quoted p.name ++ ": " ++ ruleExpression p) ++ ","
      ∈ (validationModule options classes).lines := by
  refine List.mem_append_right _ (List.mem_flatMap.2 ⟨.assignment (rulesAssignment c), ?_, ?_⟩)
  · exact List.mem_append_left _ (List.mem_map_of_mem hc)
  · refine List.mem_cons_of_mem _ (List.mem_cons_of_mem _ ?_)
    have hne : c.properties.isEmpty = false := by
      rw [List.isEmpty_eq_false_iff]
      exact List.ne_nil_of_mem hp
    unfold Definition.lines rulesAssignment Assignment.lines
    rw [hne]
    refine List.mem_append_left _ (List.mem_cons_of_mem _ ?_)
    exact List.mem_map_of_mem (List.mem_map_of_mem hp)

section Call

variable {p : PropertyModel}

/-- The words of the call are the numbers of the rule. -/
theorem word_mem_ruleArguments_iff {key word : String} :
    (key, Operand.word word) ∈ (ruleKeywords p).map (fun a => (a.1, a.2.operand)) ↔
      ∃ n, (key, Constant.number n) ∈ ruleKeywords p ∧ n.source = word := by
  rw [List.mem_map]
  constructor
  · rintro ⟨⟨key, value⟩, ha, heq⟩
    rw [Prod.mk.injEq] at heq
    obtain ⟨rfl, hword⟩ := heq
    rcases (ruleKeywords_values p _ ha).2 with s | n | ts
    · cases hword
    · exact ⟨n, ha, Operand.word.inj hword⟩
    · cases hword
  · rintro ⟨n, ha, rfl⟩
    exact ⟨_, ha, rfl⟩

theorem isNumeral_words_iff : (∀ key word,
    (key, Operand.word word) ∈ (ruleKeywords p).map (fun a => (a.1, a.2.operand)) →
      Numeral.isNumeral word = true) ↔ ∀ b ∈ p.constraints.bounds, b.isFinite = true := by
  have hnumbers := forall_ruleKeywords_number_iff (p := p) (P := fun b => b.isFinite = true) rfl
  have hcounts : ∀ n ∈ p.constraints.counts, (Bound.int n).isFinite = true := fun _ _ => rfl
  rw [and_iff_left hcounts] at hnumbers
  rw [← hnumbers]
  constructor
  · intro h key n hn
    rw [← Bound.isNumeral_source]
    exact h key _ (word_mem_ruleArguments_iff.2 ⟨n, hn, rfl⟩)
  · intro h key word hword
    obtain ⟨n, hn, rfl⟩ := word_mem_ruleArguments_iff.1 hword
    rw [Bound.isNumeral_source]
    exact h key n hn

theorem evaluateRule?_eq_some_iff
    (hcanonical : ∀ b ∈ p.constraints.bounds, ∃ d : Double, b = .double d ∧ d.Canonical) :
    evaluateRule? (ruleExpression p) = some p.rule ↔
      (∀ b ∈ p.constraints.bounds, b.isFinite = true)
        ∧ ∀ n ∈ p.constraints.counts, Rule.Readable n := by
  have hnumber : ∀ key n, (key, Constant.number n) ∈ ruleKeywords p →
      Numeral.number? n.source = if n.isReadable then some n else none := by
    have hint (n : ℤ) : Numeral.number? (Bound.int n).source
        = if (Bound.int n).isReadable then some (.int n) else none :=
      Bound.number?_source fun _ h => by cases h
    refine (forall_ruleKeywords_number_iff (hint 0)).2 ⟨fun b hb => ?_, fun n _ => hint n⟩
    obtain ⟨d, rfl, hd⟩ := hcanonical b hb
    exact Bound.number?_source fun e he => Bound.double.inj he ▸ hd
  have hreadable : (∀ key n, (key, Constant.number n) ∈ ruleKeywords p → n.isReadable = true) ↔
      (∀ b ∈ p.constraints.bounds, b.isFinite = true)
        ∧ ∀ n ∈ p.constraints.counts, Rule.Readable n := by
    rw [forall_ruleKeywords_number_iff (P := fun b => b.isReadable = true) (by decide)]
    refine and_congr (forall₂_congr fun b hb => ?_) (forall₂_congr fun n _ => decide_eq_true_iff)
    obtain ⟨d, rfl, -⟩ := hcanonical b hb
    rfl
  obtain ⟨pieces, hreads, hcall, -⟩ := exists_ruleCall p
  rw [evaluateRule?, hreads.pieces?, Option.bind_some, hcall, Option.bind_some, ← hreadable]
  constructor
  · -- A number that cannot be read leaves the call without a value.
    intro h key n hn
    obtain ⟨values, hvalues, -⟩ := Option.bind_eq_some_iff.1 h
    obtain ⟨value, hvalue⟩ := isSome_of_argumentValues? hvalues _
      (word_mem_ruleArguments_iff.2 ⟨n, hn, rfl⟩)
    rw [Operand.value?, hnumber key n hn] at hvalue
    by_contra hnot
    rw [if_neg hnot] at hvalue
    cases hvalue
  · intro h
    have hvalues : ∀ a ∈ ruleKeywords p, a.2.operand.value? = some a.2 := by
      rintro ⟨key, value⟩ ha
      refine (ruleKeywords_values p _ ha).2.value?_operand ?_
      rintro n rfl
      rw [hnumber key n ha, if_pos (h key n ha)]
    rw [argumentValues?_of_forall hvalues, Option.bind_some, ruleOf?_ruleKeywords]

end Call

end Emission

namespace Ontology

variable {source : String} {context : Option Json} {g : Rdf.Graph} {o : Ontology}
  {notices : List Notice} {c : ClassModel} {p : PropertyModel}

open Emission

/-- The rule of a property of a document stands in the module of rules as a call. The numbers of the
call are written as numbers exactly if all bounds are finite; otherwise one is written as one of
three words, two of which are names, and the module binds neither. The call makes the rule of the
property again exactly if the bounds are finite and no count has more digits than can be read. -/
theorem rule_evaluates_iff [Platform]
    (hread : (ofGraph source context g).outcome = (.ok o, notices))
    (hc : c ∈ o.resolve.1) (hp : p ∈ c.properties) :
    (∀ options, "    " ++ (Text.quoted p.name ++ ": " ++ ruleExpression p) ++ ","
        ∈ (validationModule options o.resolve.1).lines)
      ∧ (∃ arguments, (Text.pieces? (ruleExpression p)).bind (call? "PropertyRule") = some arguments
        ∧ (∀ key word, (key, .word word) ∈ arguments →
          Numeral.isNumeral word = true ∨ word ∈ ["inf", "-inf", "nan"])
        ∧ ((∀ key word, (key, .word word) ∈ arguments → Numeral.isNumeral word = true) ↔
          ∀ b ∈ p.constraints.bounds, b.isFinite = true))
      ∧ (evaluateRule? (ruleExpression p) = some p.rule ↔
        (∀ b ∈ p.constraints.bounds, b.isFinite = true)
          ∧ ∀ n ∈ p.constraints.counts, Rule.Readable n)
      ∧ ∀ options, ∀ name ∈ ["inf", "nan"],
        name ∉ (validationModule options o.resolve.1).boundNames := by
  have hcanonical : ∀ b ∈ p.constraints.bounds, ∃ d : Double, b = .double d ∧ d.Canonical := by
    obtain ⟨e, -, d, hd, hmodels⟩ := exists_declaration c hc p hp
    obtain ⟨shape, node, -, hdeclares⟩ :=
      exists_node_of_mem_declared hread (List.mem_of_find?_eq_some hd)
    rw [hmodels.constraints]
    exact Shape.canonical_of_mem_bounds (Shape.propertyAt_ok hdeclares.reads).2
  obtain ⟨pieces, hreads, hcall, -⟩ := exists_ruleCall p
  refine ⟨fun options => ruleExpression_mem_lines hc hp,
    ⟨(ruleKeywords p).map fun a => (a.1, a.2.operand), ?_, fun key word hword => ?_,
      isNumeral_words_iff⟩,
    evaluateRule?_eq_some_iff hcanonical, fun options name hname hbound => ?_⟩
  · rw [hreads.pieces?]
    exact hcall
  · obtain ⟨n, -, rfl⟩ := word_mem_ruleArguments_iff.1 hword
    rw [Bound.isNumeral_source]
    rcases hn : n.isFinite
    · exact .inr (Bound.source_of_not_isFinite hn)
    · exact .inl rfl
  · have hnames : ∀ name ∈ ["inf", "nan"], ¬ (name ∈ validationImports ∨ '_' ∈ name.toList) := by
      decide
    exact hnames name hname (mem_boundNames_validationModule hbound)

/-- A shape with one integer property, whose bound is infinite. -/
def infiniteBoundGraph : Rdf.Graph where
  triples :=
    [⟨.iri "ps", .iri Rdf.rdfType, .iri (Rdf.sh "NodeShape")⟩,
     ⟨.iri "ps", .iri (Rdf.sh "targetClass"), .iri "http://ex.org/P"⟩,
     ⟨.iri "ps", .iri (Rdf.sh "property"), .iri "n"⟩,
     ⟨.iri "n", .iri (Rdf.sh "path"), .iri "http://ex.org/n"⟩,
     ⟨.iri "n", .iri (Rdf.sh "datatype"), .iri (Rdf.xsd "integer")⟩,
     ⟨.iri "n", .iri (Rdf.sh "minInclusive"), .literal ⟨"-INF", some (Rdf.xsd "double"), none⟩⟩]

def infiniteBoundOntology : Ontology where
  shapes :=
    [⟨"ps", "http://ex.org/P",
      [{ path := "http://ex.org/n", name := "n", datatype := some (Rdf.xsd "integer")
         constraints := { minInclusive := some (.double (.infinite true)) } }]⟩]
  context := {}
  classes := [⟨"http://ex.org/P", "P", []⟩]
  source := "shapes"

section

attribute [local instance] Platform.standard

/-- Its rule is written with a name that the module of rules does not bind, and makes no rule. -/
theorem infinite_bound_not_evaluated :
    (ofGraph "shapes" none infiniteBoundGraph).outcome = (.ok infiniteBoundOntology, [])
      ∧ ∃ c ∈ infiniteBoundOntology.resolve.1, ∃ p ∈ c.properties,
        ruleExpression p = "PropertyRule(name='n', path='http://ex.org/n', value_type='int', "
            ++ "min_inclusive=-inf)"
          ∧ evaluateRule? (ruleExpression p) ≠ some p.rule
          ∧ ∀ options, "inf" ∉ (validationModule options infiniteBoundOntology.resolve.1).boundNames
          := by
  have hread : (ofGraph "shapes" none infiniteBoundGraph).outcome
      = (.ok infiniteBoundOntology, []) :=
    ofGraph_of_shapes (by decide +kernel) (by decide +kernel) rfl rfl
  have hfound : ∃ c ∈ infiniteBoundOntology.evaluate, ∃ p ∈ c.properties,
      p.constraints.bounds = [.double (.infinite true)]
        ∧ ruleExpression p = "PropertyRule(name='n', path='http://ex.org/n', value_type='int', "
          ++ "min_inclusive=-inf)" := by
    decide +kernel
  rw [← resolve_eq_evaluate] at hfound
  obtain ⟨c, hc, p, hp, hbounds, hexpression⟩ := hfound
  obtain ⟨-, -, hvalue, hnames⟩ := rule_evaluates_iff hread hc hp
  refine ⟨hread, c, hc, p, hp, hexpression, fun h => ?_, fun options =>
    hnames options "inf" (by simp)⟩
  have hfinite := (hvalue.1 h).1 (.double (.infinite true)) (by simp [hbounds])
  cases hfinite

end

end Ontology

end ShapeForge
