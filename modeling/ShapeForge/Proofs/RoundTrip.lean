import ShapeForge.Platform.Standard
import ShapeForge.Proofs.Accessors
import ShapeForge.Proofs.Numerals
import ShapeForge.Proofs.Setters

/-!
# Reading what was built

A setter writes a value as a literal, and an accessor reads the literal back as the value
(`SetterCall.Sets.writes`): integers, booleans and texts are written in a form of their datatype
that is read strictly. A builder keeps the literals of the accepted calls in order
(`Builder.Gathered`), and the graph leaves out repetitions, so a list accessor reads the values of
the calls without later repetitions, and a scalar one reads the last value
(`Ontology.read_after_build`).
-/

namespace ShapeForge

open Rdf (Graph Literal Term)

/-- The datatypes of a type whose literals are read as what was written. -/
def ScalarType.exactDatatypes : ScalarType → List (Option String)
  | .integer => [some (Rdf.xsd "int"), some (Rdf.xsd "integer")]
  | .boolean => [some (Rdf.xsd "boolean")]
  | .text => [none, some (Rdf.xsd "string"), some (Rdf.xsd "anyURI")]
  | .real => []

namespace ScalarValue

def lexical : ScalarValue → String
  | .integer i => toString i
  | .real d => d.text
  | .boolean b => if b then "true" else "false"
  | .text s _ => s

def lang : ScalarValue → Option String
  | .text _ lang => lang
  | _ => none

/-- The value with its language tag in small letters. -/
def folded : ScalarValue → ScalarValue
  | .text s lang => .text s (lang.map Rdf.foldLang)
  | v => v

/-- The literal of a value that is written with a language tag, which may be empty; it wins over the
datatype. -/
def written (v : ScalarValue) (datatype tag : Option String) : Literal where
  lexical := v.lexical
  datatype := if tag.isSome then none else datatype.filter (· ≠ Rdf.xsd "string")
  lang := v.lang

end ScalarValue

/-- The value of a type that is given with a language tag; the empty tag is none. -/
def Value.scalar? (type : ScalarType) (tag : Option String) (v : Value) : Option ScalarValue :=
  match type, v with
  | .integer, .int i => some (.integer i)
  | .boolean, .bool b => some (.boolean b)
  | .text, .text s => some (.text s (tag.filter (!·.isEmpty)))
  | _, _ => none

/-- The language tag that further arguments of a setter call are. -/
def tagOf : List Argument → Option String
  | [.value (.text tag)] => some tag
  | _ => none

namespace SetterCall

def tag (call : SetterCall) : Option String := tagOf call.rest

def scalar? (type : ScalarType) (call : SetterCall) : Option ScalarValue :=
  match call.value with
  | .value v => v.scalar? type call.tag
  | .reference _ => none

/-- The literal that a call writes. -/
def literal? [Rdf.Datatypes] (datatype : Option String) (call : SetterCall) : Option Literal :=
  match call.value with
  | .value v => (v.literal datatype call.tag).toOption
  | .reference _ => none

/-- Whether two calls write equal literals: the case of language tags does not count. -/
def repeats [Rdf.Datatypes] (datatype : Option String) (a b : SetterCall) : Bool :=
  (a.literal? datatype).map Literal.folded == (b.literal? datatype).map Literal.folded

end SetterCall

/-! ## Literals that are read back -/

namespace Value

theorem literal_of_typed [Rdf.Datatypes] {w : Value} {d text : String} {l : Literal}
    (hd : d ≠ Rdf.xsd "string") (hw : w.lexical = .ok text)
    (h : w.literal (some d) none = .ok l) : l = .typed text d := by
  rw [literal, hw] at h
  simpa [bind, Except.bind, pure, Except.pure, hd] using h.symm

theorem literal_int [Rdf.Datatypes] {d : String}
    (hd : some d ∈ ScalarType.exactDatatypes .integer) {i : Int} {l : Literal}
    (h : (Value.int i).literal (some d) none = .ok l) :
    l = { lexical := toString i, datatype := some d } := by
  have hfamily : Rdf.DatatypeFamily.of? d = some .integer ∧ d ≠ Rdf.xsd "string" := by
    simp only [ScalarType.exactDatatypes, List.mem_cons, Option.some.injEq, List.not_mem_nil,
      or_false] at hd
    rcases hd with rfl | rfl <;> decide
  have hcanonical : (Rdf.valueOf (toString i) .integer).canonical = toString i := by
    rw [Rdf.valueOf, Numeral.integer?_toString]
    split_ifs <;> rfl
  obtain ⟨text, htext, -⟩ := bind_ok_iff.1 h
  obtain rfl : toString i = text := by
    rw [lexical] at htext
    split_ifs at htext
    exact Except.ok.inj htext
  rw [literal_of_typed hfamily.2 htext h]
  simp only [Literal.typed, Rdf.formOf, hfamily.1, hcanonical]

theorem literal_bool [Rdf.Datatypes] {b : Bool} {l : Literal}
    (h : (Value.bool b).literal (some (Rdf.xsd "boolean")) none = .ok l) :
    l = { lexical := if b then "true" else "false", datatype := some (Rdf.xsd "boolean") } := by
  have hfamily : Rdf.DatatypeFamily.of? (Rdf.xsd "boolean") = some .boolean := by decide
  rw [literal_of_typed (by decide) rfl h, Literal.typed, Rdf.formOf, hfamily]
  cases b <;> rfl

theorem literal_text [Rdf.Datatypes] {datatype tag : Option String}
    (hd : datatype ∈ ScalarType.exactDatatypes .text) {s : String} {l : Literal}
    (h : (Value.text s).literal datatype tag = .ok l) :
    l = ScalarValue.written (.text s (tag.filter (!·.isEmpty))) datatype tag := by
  simp only [ScalarValue.written, ScalarValue.lexical, ScalarValue.lang]
  rcases tag with _ | tag
  · simp only [ScalarType.exactDatatypes, List.mem_cons, List.not_mem_nil, or_false] at hd
    rcases hd with rfl | rfl | rfl
    · exact (Except.ok.inj h).symm
    · exact (Except.ok.inj h).symm
    · have hfamily : Rdf.DatatypeFamily.of? (Rdf.xsd "anyURI") = some .text
          ∧ Rdf.xsd "anyURI" ≠ Rdf.xsd "string" := by decide
      rw [literal_of_typed hfamily.2 rfl h]
      simp [Literal.typed, Rdf.formOf, hfamily, Rdf.valueOf, Rdf.LiteralValue.canonical,
        Option.filter]
  · change Literal.tagged s tag = .ok l at h
    rw [Literal.tagged] at h
    split_ifs at h with hempty htag
    · simpa [hempty, Literal.plain, Option.filter] using h.symm
    · simpa [hempty, Option.filter] using h.symm

variable {type : ScalarType} {datatype tag : Option String} {w : Value} {v : ScalarValue}

theorem scalar?_cases (h : w.scalar? type tag = some v) :
    (∃ i, type = .integer ∧ w = .int i ∧ v = .integer i)
      ∨ (∃ b, type = .boolean ∧ w = .bool b ∧ v = .boolean b)
      ∨ ∃ s, type = .text ∧ w = .text s ∧ v = .text s (tag.filter (!·.isEmpty)) := by
  unfold scalar? at h
  split at h
  · exact .inl ⟨_, rfl, rfl, (Option.some.inj h).symm⟩
  · exact .inr (.inl ⟨_, rfl, rfl, (Option.some.inj h).symm⟩)
  · exact .inr (.inr ⟨_, rfl, rfl, (Option.some.inj h).symm⟩)
  · simp at h

/-- A literal has the text and the tag of the value that it is made of. -/
theorem literal_exact [Rdf.Datatypes] (hexact : datatype ∈ type.exactDatatypes)
    (htag : tag.isSome = true → type = .text) (hv : w.scalar? type tag = some v) {l : Literal}
    (h : w.literal datatype tag = .ok l) :
    l = v.written datatype tag := by
  unfold ScalarValue.written
  have huntagged : type ≠ .text → tag = none := by
    intro hne
    rcases tag with _ | tag
    · rfl
    · exact absurd (htag rfl) hne
  rcases scalar?_cases hv with ⟨i, rfl, rfl, rfl⟩ | ⟨b, rfl, rfl, rfl⟩ | ⟨text, rfl, rfl, rfl⟩
  · obtain rfl := huntagged (by decide)
    obtain ⟨d, rfl, hd⟩ : ∃ d, datatype = some d ∧ d ≠ Rdf.xsd "string" := by
      simp only [ScalarType.exactDatatypes, List.mem_cons, List.not_mem_nil, or_false] at hexact
      rcases hexact with rfl | rfl
      · exact ⟨_, rfl, by decide⟩
      · exact ⟨_, rfl, by decide⟩
    simp [literal_int hexact h, Option.filter, hd, ScalarValue.lexical, ScalarValue.lang]
  · obtain rfl := huntagged (by decide)
    simp only [ScalarType.exactDatatypes, List.mem_singleton] at hexact
    subst hexact
    have hd : Rdf.xsd "boolean" ≠ Rdf.xsd "string" := by decide
    simp [literal_bool h, Option.filter, hd, ScalarValue.lexical, ScalarValue.lang]
  · exact literal_text hexact h

/-- A literal that can be read at all is read as the value that it is made of. -/
theorem readTerm?_exact (hv : w.scalar? type tag = some v)
    (hread : ∃ u, type.read v.lexical = .ok u) (d : Option String) :
    (ValueType.scalar type).readTerm? (.literal ⟨v.lexical, d, v.lang⟩) = some v := by
  obtain ⟨u, hu⟩ := hread
  rcases scalar?_cases hv with ⟨i, rfl, rfl, rfl⟩ | ⟨b, rfl, rfl, rfl⟩ | ⟨text, rfl, rfl, rfl⟩
  · rw [ScalarType.read, ScalarValue.lexical, Scalar.integer_toString] at hu
    split_ifs at hu with hlen
    · change ((Scalar.integer (toString i)).map ScalarValue.integer).toOption = _
      rw [Scalar.integer_toString, if_pos hlen]
      rfl
    · simp [Except.map] at hu
  · cases b <;> rfl
  · rcases tag with _ | tag
    · rfl
    · by_cases hempty : tag.isEmpty = true <;>
        simp [ValueType.readTerm?, ScalarValue.lexical, ScalarValue.lang, Option.filter, hempty]

/-- Values of one type are equal, the case of tags apart, if their texts and tags are. -/
theorem folded_eq_iff {a b : Option String} {x : Value} {u : ScalarValue}
    (hu : w.scalar? type a = some u) (hv : x.scalar? type b = some v) :
    u.folded = v.folded ↔
      u.lexical = v.lexical ∧ u.lang.map Rdf.foldLang = v.lang.map Rdf.foldLang := by
  rcases scalar?_cases hu with ⟨i, rfl, rfl, rfl⟩ | ⟨t, rfl, rfl, rfl⟩ | ⟨s, rfl, rfl, rfl⟩ <;>
    rcases scalar?_cases hv with ⟨j, ht, rfl, rfl⟩ | ⟨t', ht, rfl, rfl⟩ | ⟨s', ht, rfl, rfl⟩ <;>
      cases ht
  · simp only [ScalarValue.folded, ScalarValue.lexical, ScalarValue.lang, and_true,
      ScalarValue.integer.injEq]
    exact Numeral.toString_injective.eq_iff.symm
  · cases t <;> cases t' <;> simp [ScalarValue.folded, ScalarValue.lexical, ScalarValue.lang]
  · simp [ScalarValue.folded, ScalarValue.lexical, ScalarValue.lang]

theorem lang_of_text (h : w.scalar? .text tag = some v) : v.lang = tag.filter (!·.isEmpty) := by
  rcases scalar?_cases h with ⟨_, ht, -⟩ | ⟨_, ht, -⟩ | ⟨s, -, -, rfl⟩
  · cases ht
  · cases ht
  · rfl

/-- If the tags are equal in small letters, so are the datatypes that they leave. -/
theorem written_datatype_eq (hexact : datatype ∈ type.exactDatatypes) {a b : Option String}
    {x : Value} {u : ScalarValue} (hu : w.scalar? type a = some u)
    (hv : x.scalar? type b = some v) (ha : a.isSome = true → type = .text)
    (hb : b.isSome = true → type = .text)
    (htags : datatype = some (Rdf.xsd "anyURI") → a ≠ some "" ∧ b ≠ some "")
    (hlang : u.lang.map Rdf.foldLang = v.lang.map Rdf.foldLang) :
    (u.written datatype a).datatype = (v.written datatype b).datatype := by
  simp only [ScalarValue.written]
  by_cases htext : type = .text
  · subst htext
    simp only [ScalarType.exactDatatypes, List.mem_cons, List.not_mem_nil, or_false] at hexact
    rcases hexact with rfl | rfl | rfl
    · simp
    · simp [Option.filter]
    · have hnonempty : ∀ tag : Option String, tag ≠ some "" → tag.filter (!·.isEmpty) = tag := by
        intro tag htag
        rcases tag with _ | tag
        · rfl
        · have hne : tag.isEmpty = false := by simpa using htag
          simp [Option.filter, hne]
      have hsome : a.isSome = b.isSome := by
        rw [lang_of_text hu, lang_of_text hv, hnonempty a (htags rfl).1,
          hnonempty b (htags rfl).2] at hlang
        simpa using congrArg Option.isSome hlang
      rw [hsome]
  · have hnone : ∀ tag : Option String, (tag.isSome = true → type = .text) →
        tag.isSome = false := by
      intro tag htag
      rcases htag' : tag.isSome with _ | _
      · rfl
      · exact absurd (htag htag') htext
    rw [hnone a ha, hnone b hb]

end Value

/-- Only texts take a tag, and only a text is one. -/
theorem Action.languageOf_ok {o : Options} {p : PropertyModel} {rest : List Argument}
    {s : Session} {found : Option String} (h : ((languageOf o p rest).after s).1 = .ok found) :
    found = tagOf rest ∧ (found.isSome = true → p.type.isText = true) := by
  rcases rest with _ | ⟨a, _ | ⟨_, _⟩⟩
  · cases h
    exact ⟨rfl, by simp⟩
  · unfold languageOf at h
    by_cases htakes : Emission.takesLanguage o p = true
    · have htext : p.type.isText = true := ((Bool.and_eq_true _ _).mp htakes).2
      simp only [if_pos htakes] at h
      rw [after_bind] at h
      rcases a with v | name
      · cases v <;> cases h <;> exact ⟨rfl, by simp [htext]⟩
      · -- A builder or a wrapped node is no tag.
        rw [evaluate, after_bind] at h
        rcases hget : Assoc.get? name s.bindings with _ | ⟨c, b⟩ | w
        · rw [after_lookup_none hget] at h
          cases h
        · rw [after_lookup hget] at h
          cases h
        · rw [after_lookup hget] at h
          cases h
    · simp only [if_neg htakes] at h
      cases h
  · cases h

namespace SetterCall

variable {call : SetterCall} {s : Session} {c : ClassModel} {node t : Term} {p : PropertyModel}
  {type : ScalarType} {datatype : Option String} {v : ScalarValue}

/-- A call with a value gives this value and its tag, and a tag only to a text. -/
theorem given_of_value {w w' : Value} {tag : Option String} (hvalue : call.value = .value w)
    (h : call.given s p = .ok (w', tag)) :
    w' = w ∧ tag = call.tag ∧ (tag.isSome = true → p.type.isText = true) := by
  have hev : ((Action.evaluate call.value).after s).1 = .ok w := by
    rw [hvalue]
    rfl
  rw [given, hev] at h
  rcases hlang : ((Action.languageOf s.package.options p call.rest).after s).1 with e | found
  · simp [hlang, bind, Except.bind] at h
  · simp only [hlang, bind, Except.bind, pure, Except.pure, Except.ok.injEq, Prod.mk.injEq] at h
    obtain ⟨rfl, rfl⟩ := h
    exact ⟨rfl, Action.languageOf_ok hlang⟩

theorem exists_value (hv : call.scalar? type = some v) :
    ∃ w, call.value = .value w ∧ w.scalar? type call.tag = some v := by
  unfold scalar? at hv
  split at hv
  · rename_i w hvalue
    exact ⟨w, hvalue, hv⟩
  · simp at hv

/-- A call writes the text and the tag of a value, and what it writes is read as this value. -/
structure Writes [Rdf.Datatypes] (type : ScalarType) (datatype : Option String) (call : SetterCall)
    (v : ScalarValue) : Prop where
  scalar : call.scalar? type = some v
  tagged : call.tag.isSome = true → type = .text
  literal : call.literal? datatype = some (v.written datatype call.tag)
  reads : (ValueType.scalar type).readTerm? (.literal (v.written datatype call.tag)) = some v

theorem Sets.writes [Platform] (h : call.Sets s c node p t)
    (htype : p.type = .literal type datatype)
    (hexact : datatype ∈ type.exactDatatypes) (hv : call.scalar? type = some v) :
    call.Writes type datatype v ∧ t = .literal (v.written datatype call.tag) := by
  obtain ⟨w', tag, hgiven, hterm⟩ := h.term
  obtain ⟨w, hvalue, hw⟩ := exists_value hv
  obtain ⟨rfl, rfl, htag⟩ := given_of_value hvalue hgiven
  have htext : call.tag.isSome = true → type = .text := by
    intro hsome
    have hisText := htag hsome
    rw [htype] at hisText
    cases type <;> simp [TargetType.isText] at hisText ⊢
  rw [PropertyModel.term, htype] at hterm
  rcases hl : w'.literal datatype call.tag with e | l
  · simp [hl, Except.map, Except.mapError] at hterm
  · simp only [hl, Except.map, Except.mapError, Except.ok.injEq] at hterm
    obtain rfl := Value.literal_exact hexact htext hw hl
    subst hterm
    have hvalueType : p.rule.valueType = .scalar type := by
      rw [p.rule_valueType, htype]
      rfl
    -- The rule has read the literal, so it can be read.
    have hadmits := (Rule.valueViolations_eq_nil_iff.1 h.passes).2 _ rfl
    obtain ⟨u, hu, -⟩ := hadmits.typed type hvalueType
    refine ⟨⟨hv, htext, ?_, Value.readTerm?_exact hw ⟨u, hu⟩ _⟩, rfl⟩
    rw [literal?, hvalue]
    simp [hl, Except.toOption]

end SetterCall

/-! ## What a builder gathers -/

/-- The values of a property are those of the accepted calls: all of them, or the last. -/
structure Builder.Gathered [Platform] (c : ClassModel) (node : Term) (p : PropertyModel)
    (done : List SetterCall) (b : Builder) : Prop where
  node_eq : b.node = node
  keys : (b.values.map (·.1)).Nodup
  values : ∃ ts, List.Forall₂ (fun call t => ∃ s, SetterCall.Sets s c node call p t)
      (done.filter (·.property == p.name)) ts
    ∧ b.valuesOf p.iri = if p.isList then ts else ts.getLast?.toList

namespace Builder.Gathered

variable {c : ClassModel} {node : Term} {p : PropertyModel} {done : List SetterCall} {b : Builder}

theorem place [Platform] (h : b.Gathered c node p done) (q : PropertyModel) :
    (b.place q).Gathered c node p done where
  node_eq := h.node_eq
  keys := Assoc.put_keys_nodup h.keys
  values := by
    rw [valuesOf_place]
    exact h.values

theorem store [Platform] (hiris : (c.properties.map PropertyModel.iri).Nodup)
    (hp : c.property? p.name = some p) (h : b.Gathered c node p done) {s : Session}
    {call : SetterCall} {q : PropertyModel} {t : Term} (hsets : call.Sets s c b.node q t) :
    (b.store q t).Gathered c node p (done ++ [call]) := by
  refine ⟨h.node_eq, Assoc.put_keys_nodup h.keys, ?_⟩
  obtain ⟨ts, hall, hvalues⟩ := h.values
  by_cases hname : call.property = p.name
  · have hproperty := hsets.property
    rw [hname, hp] at hproperty
    obtain rfl := Option.some.inj hproperty
    refine ⟨ts ++ [t], ?_, ?_⟩
    · rw [List.filter_append, List.filter_cons_of_pos (by simp [hname]), List.filter_nil]
      exact List.rel_append hall (.cons ⟨s, h.node_eq ▸ hsets⟩ .nil)
    · rw [valuesOf_store, hvalues]
      cases p.isList <;> simp
  · -- A property with another name has another predicate.
    have hne : p.iri ≠ q.iri := by
      intro he
      obtain ⟨hq, hqname⟩ := ClassModel.of_property? hsets.property
      obtain rfl := List.inj_on_of_nodup_map hiris (ClassModel.of_property? hp).1 hq he
      exact hname hqname.symm
    refine ⟨ts, ?_, ?_⟩
    · rw [List.filter_append, List.filter_cons_of_neg (by simp [hname]), List.filter_nil,
        List.append_nil]
      exact hall
    · rw [valuesOf_store_of_ne b q t hne, hvalues]

end Builder.Gathered

/-- The values of accepted calls are literals, and those that the calls write. -/
theorem exists_literals [Platform] {c : ClassModel} {node : Term} {p : PropertyModel}
    {type : ScalarType} {datatype : Option String} (htype : p.type = .literal type datatype)
    (hexact : datatype ∈ type.exactDatatypes) {given : List SetterCall} {ts : List Term}
    (hall : List.Forall₂ (fun call t => ∃ s, SetterCall.Sets s c node call p t) given ts)
    (hgiven : ∀ call ∈ given, (call.scalar? type).isSome = true) :
    ∃ ls : List Literal, ts = ls.map .literal ∧ given.map (·.literal? datatype) = ls.map some
      ∧ ∀ call ∈ given, ∃ v, call.Writes type datatype v := by
  induction hall with
  | nil => exact ⟨[], rfl, rfl, by simp⟩
  | @cons call t given ts hsets _ ih =>
    obtain ⟨ls, rfl, hliterals, hwrites⟩ := ih fun a ha => hgiven a (List.mem_cons_of_mem _ ha)
    obtain ⟨v, hv⟩ := Option.isSome_iff_exists.1 (hgiven call List.mem_cons_self)
    obtain ⟨s, hsets⟩ := hsets
    obtain ⟨hcall, rfl⟩ := hsets.writes htype hexact hv
    refine ⟨v.written datatype call.tag :: ls, rfl, by simp [hcall.literal, hliterals], ?_⟩
    exact List.forall_mem_cons.2 ⟨⟨v, hcall⟩, hwrites⟩

/-! ## What the graph keeps -/

/-- Whether two literals are equal in a graph. -/
def sameLiteral (l m : Literal) : Bool := (Term.literal l).same (.literal m)

theorem sameLiteral_eq (l m : Literal) :
    sameLiteral l m = (some l.folded == some m.folded) := by
  rw [Bool.eq_iff_iff, sameLiteral, Term.literal_same_literal]
  simp

/-- The literals of a new node are read without repetitions; its class is no literal. -/
theorem Builder.Unknown.literals_graphOver {b : Builder} {g : Graph} (hgraph : b.Unknown g)
    (hkeys : (b.values.map (·.1)).Nodup) {predicate : String} {ls : List Literal}
    (hvalues : b.valuesOf predicate = ls.map .literal) (type : ValueType) :
    (b.graphOver g).literals b.node predicate type
      = (ls.eraseDupsBy sameLiteral).filterMap fun l => type.readTerm? (.literal l) := by
  have hmap : (ls.map Term.literal).eraseDupsBy Term.same
      = (ls.eraseDupsBy sameLiteral).map Term.literal := Rdf.eraseDupsBy_map _ _ ls
  rw [Graph.literals, hgraph.objects_graphOver hkeys, hvalues, Rdf.distinctTerms_eq, classTerms]
  split_ifs
  · have hfilter : (ls.map Term.literal).filter
        (fun t => decide (t.same (.iri b.classIri) = false)) = ls.map Term.literal := by
      rw [List.filter_eq_self]
      intro t ht
      obtain ⟨l, -, rfl⟩ := List.mem_map.1 ht
      rw [Term.same_comm]
      simp [Term.not_iri_same_literal]
    rw [List.singleton_append, List.eraseDupsBy_cons, hfilter, hmap,
      List.filterMap_cons_none rfl, List.filterMap_map]
    rfl
  · rw [List.nil_append, hmap, List.filterMap_map]
    rfl

theorem filterMap_eraseDupsBy_repeats [Rdf.Datatypes] {type : ScalarType} {datatype : Option String}
    {given : List SetterCall} {ls : List Literal}
    (hliterals : given.map (·.literal? datatype) = ls.map some)
    (hwrites : ∀ call ∈ given, ∃ v, call.Writes type datatype v) :
    (given.eraseDupsBy (SetterCall.repeats datatype)).filterMap (·.scalar? type)
      = (ls.eraseDupsBy sameLiteral).filterMap
        fun l => (ValueType.scalar type).readTerm? (.literal l) := by
  -- Leaving out repeated calls leaves out repeated literals, and each is read as its value.
  have hsame : (given.eraseDupsBy (SetterCall.repeats datatype)).map (·.literal? datatype)
      = (ls.eraseDupsBy sameLiteral).map some := by
    have hcalls := Rdf.eraseDupsBy_map (SetterCall.literal? datatype)
      (fun l m => l.map Literal.folded == m.map Literal.folded) given
    rw [hliterals, Rdf.eraseDupsBy_map] at hcalls
    simp only [Option.map_some, ← sameLiteral_eq] at hcalls
    exact hcalls.symm
  have hreads : ∀ call ∈ given, call.scalar? type
      = (call.literal? datatype).bind fun l => (ValueType.scalar type).readTerm? (.literal l) := by
    intro call hcall
    obtain ⟨v, hv⟩ := hwrites call hcall
    rw [hv.scalar, hv.literal, Option.bind_some, hv.reads]
  calc (given.eraseDupsBy (SetterCall.repeats datatype)).filterMap (·.scalar? type)
      = (given.eraseDupsBy (SetterCall.repeats datatype)).filterMap fun call =>
          (call.literal? datatype).bind
            fun l => (ValueType.scalar type).readTerm? (.literal l) :=
        List.filterMap_congr fun call hcall => hreads call (Rdf.mem_of_mem_eraseDupsBy hcall)
    _ = ((given.eraseDupsBy (SetterCall.repeats datatype)).map (·.literal? datatype)).filterMap
          fun l => l.bind fun l => (ValueType.scalar type).readTerm? (.literal l) := by
        rw [List.filterMap_map]
        rfl
    _ = (ls.eraseDupsBy sameLiteral).filterMap
          fun l => (ValueType.scalar type).readTerm? (.literal l) := by
        rw [hsame, List.filterMap_map]
        rfl

/-- Calls repeat each other if they give equal values, the case of tags apart. The empty tag is
none, but it drops the datatype. -/
theorem SetterCall.repeats_iff [Rdf.Datatypes] {type : ScalarType} {datatype : Option String}
    (hexact : datatype ∈ type.exactDatatypes) {a b : SetterCall} {u v : ScalarValue}
    (ha : a.Writes type datatype u) (hb : b.Writes type datatype v)
    (htags : datatype = some (Rdf.xsd "anyURI") → a.tag ≠ some "" ∧ b.tag ≠ some "") :
    a.repeats datatype b = true ↔ u.folded = v.folded := by
  obtain ⟨w, -, hw⟩ := exists_value ha.scalar
  obtain ⟨x, -, hx⟩ := exists_value hb.scalar
  rw [repeats, ha.literal, hb.literal, beq_iff_eq, Option.map_some, Option.map_some,
    Option.some.injEq, Value.folded_eq_iff hw hx, Literal.folded, Literal.folded, Literal.mk.injEq]
  constructor
  · rintro ⟨hlexical, -, hlang⟩
    exact ⟨hlexical, hlang⟩
  · rintro ⟨hlexical, hlang⟩
    exact ⟨hlexical, Value.written_datatype_eq hexact hw hx ha.tagged hb.tagged htags hlang, hlang⟩

/-- What an accessor makes of the literals that a builder has written for accepted calls. -/
theorem gathered_literals [Rdf.Datatypes] {p : PropertyModel} {type : ScalarType}
    {datatype : Option String}
    {given : List SetterCall} {ls : List Literal} {b : Builder} {g : Graph}
    (hgraph : b.Unknown g) (hkeys : (b.values.map (·.1)).Nodup)
    (hliterals : given.map (·.literal? datatype) = ls.map some)
    (hwrites : ∀ call ∈ given, ∃ v, call.Writes type datatype v)
    (hvalues : b.valuesOf p.iri
      = if p.isList then ls.map .literal else (ls.map .literal).getLast?.toList) :
    p.gathered (((b.graphOver g).literals b.node p.iri (.scalar type)).map .scalar)
      = if p.isList
        then .list (((given.eraseDupsBy (SetterCall.repeats datatype)).filterMap
          (·.scalar? type)).map .scalar)
        else ((given.getLast?.bind (·.scalar? type)).map Reading.scalar).getD .absent := by
  unfold PropertyModel.gathered
  split_ifs at hvalues ⊢ with hlist
  · rw [hgraph.literals_graphOver hkeys hvalues, filterMap_eraseDupsBy_repeats hliterals hwrites]
  · -- The last literal is the one that the last call writes.
    have hlast := congrArg List.getLast? hliterals
    rw [List.getLast?_map, List.getLast?_map] at hlast
    rcases hcall : given.getLast? with _ | call <;> rcases hl : ls.getLast? with _ | l <;>
      rw [hcall, hl] at hlast
    · have hnone : b.valuesOf p.iri = ([] : List Literal).map .literal := by
        rw [hvalues, List.getLast?_map, hl]
        rfl
      rw [hgraph.literals_graphOver hkeys hnone]
      rfl
    · simp at hlast
    · simp at hlast
    · have hone : b.valuesOf p.iri = [l].map .literal := by
        rw [hvalues, List.getLast?_map, hl]
        rfl
      obtain ⟨v, hv⟩ := hwrites call (List.mem_of_getLast? hcall)
      rw [Option.map_some, Option.map_some, Option.some.injEq, hv.literal, Option.some.injEq]
        at hlast
      subst hlast
      rw [hgraph.literals_graphOver hkeys hone, List.eraseDupsBy_cons]
      simp [hv.reads, hv.scalar]

namespace Action

theorem after_build {x : String} {s : Session} {c : ClassModel} {b : Builder}
    (h : Assoc.get? x s.bindings = some (.builder c b)) :
    (build x).after s = (.ok b.node, { s with scope := b.build s.scope }) := by
  unfold build
  rw [after_bind, after_lookupBuilder h]
  rfl

end Action

namespace Ontology

variable {o : Ontology} {c : ClassModel}

/-- After any setter calls on a new builder and one build, the accessor of a property reads the
values of its accepted calls: a list has them in order without repetitions, and a scalar is the last
of them, or absent. -/
theorem read_after_build [Platform] (hc : c ∈ o.resolve.1) {s : Session}
    (hclasses : s.package.classes = o.resolve.1) {name : String} {p : PropertyModel}
    (hp : c.property? name = some p) {type : ScalarType} {datatype : Option String}
    (htype : p.type = .literal type datatype) (hexact : datatype ∈ type.exactDatatypes)
    {x : String} {b : Builder} (hx : Assoc.get? x s.bindings = some (.builder c b))
    (hnew : b.values = []) (hgraph : b.Unknown s.scope.graph) (calls : List SetterCall)
    (hgiven : ∀ call ∈ s.acceptedOf x calls name, (call.scalar? type).isSome = true)
    (choice : RegistryChoice) :
    ((Action.build x).after (s.afterSetters x calls)).2.readMember choice
        ⟨c.wrapperClass, b.node⟩ name
      = .ok (if p.isList
        then .list ((((s.acceptedOf x calls name).eraseDupsBy
          (SetterCall.repeats datatype)).filterMap (·.scalar? type)).map .scalar)
        else (((s.acceptedOf x calls name).getLast?.bind (·.scalar? type)).map
          Reading.scalar).getD .absent)
      ∧ ∀ a ∈ s.acceptedOf x calls name, ∀ b ∈ s.acceptedOf x calls name,
        (datatype = some (Rdf.xsd "anyURI") → a.tag ≠ some "" ∧ b.tag ≠ some "") →
          (a.repeats datatype b = true ↔
            (a.scalar? type).map ScalarValue.folded = (b.scalar? type).map ScalarValue.folded) := by
  have hname := (ClassModel.of_property? hp).2
  have hp' : c.property? p.name = some p := by rw [hname, hp]
  have hiris := property_iris_nodup hc
  obtain ⟨b', hrun, hgathered⟩ := Session.afterSetters_induction (x := x) (c := c)
    (P := fun done b' => b'.Gathered c b.node p done)
    (fun _ _ _ _ _ _ h hsets => h.store hiris hp' hsets) (fun _ _ q h => h.place q)
    calls [] s b hx
    ⟨rfl, by simp [hnew], [], by simp, by simp [Builder.valuesOf, hnew, Assoc.get?]⟩
  rw [List.nil_append] at hgathered
  obtain ⟨ts, hall, hvalues⟩ := hgathered.values
  rw [hname, ← Session.acceptedOf] at hall
  obtain ⟨ls, rfl, hliterals, hwrites⟩ := exists_literals htype hexact hall hgiven
  have hunknown : b'.Unknown s.scope.graph := by
    rw [Builder.Unknown, hgathered.node_eq]
    exact hgraph
  constructor
  · rw [hrun, Action.after_build Session.get?_rebind, Session.readMember]
    simp only [Session.rebind]
    rw [wrappedModel?_eq hclasses hc]
    simp only [hp]
    rw [Session.readProperty_literal htype, ← hgathered.node_eq,
      ← gathered_literals hunknown hgathered.keys hliterals hwrites hvalues]
    rfl
  · intro a ha b hb htags
    obtain ⟨u, hu⟩ := hwrites a ha
    obtain ⟨v, hv⟩ := hwrites b hb
    rw [hu.scalar, hv.scalar, Option.map_some, Option.map_some, Option.some.injEq]
    exact SetterCall.repeats_iff hexact hu hv htags

/-- A class with labels and an age. -/
def labelled : Ontology where
  shapes :=
    [⟨"s", "http://ex.org/P",
      [{ path := "http://ex.org/label", name := "label" },
       { path := "http://ex.org/age", name := "age", datatype := some (Rdf.xsd "integer")
         constraints := { maxCount := some 1 } }]⟩]
  classes := [⟨"http://ex.org/P", "P", []⟩]

/-- A session with a new builder of a class, in which texts may have language tags. -/
def labelledSession (classes : List ClassModel) (c : ClassModel) : Session where
  package := ⟨{ dslName := "d", packageName := "p", supportLanguageTags := true }, classes⟩
  registry := Package.registryOf classes
  bindings := [("x", .builder c
    { className := c.builderClass, classIri := c.iri, node := .iri "http://ex.org/a" })]

/-- Calls that repeat a label in another case of its tag, and one with a tag that is none. -/
def labelCalls : List SetterCall :=
  [{ property := "label", value := .value (.text "one"), rest := [.value (.text "en")] },
   { property := "age", value := .value (.int 7) },
   { property := "label", value := .value (.text "one"), rest := [.value (.text "EN")] },
   { property := "label", value := .value (.text "two"), rest := [.value (.text "e n")] },
   { property := "label", value := .value (.text "three") }]

section

attribute [local instance] Platform.standard

/-- The label is read once, with its first tag, and what was refused is not read. -/
theorem labelled_labels_read : ∃ c ∈ labelled.resolve.1,
    ((labelledSession labelled.resolve.1 c).acceptedOf "x" labelCalls "label").length = 3
      ∧ ((Action.build "x").after
          ((labelledSession labelled.resolve.1 c).afterSetters "x" labelCalls)).2.readMember
          .common ⟨c.wrapperClass, .iri "http://ex.org/a"⟩ "label"
        = .ok (.list [.scalar (.text "one" (some "en")), .scalar (.text "three" none)]) := by
  have hfound : ∃ c ∈ labelled.evaluate, ∃ p ∈ c.properties, c.property? "label" = some p
      ∧ p.isList = true ∧ p.type = .literal .text none
      ∧ ((labelledSession labelled.evaluate c).acceptedOf "x" labelCalls "label").length = 3
      ∧ (∀ call ∈ (labelledSession labelled.evaluate c).acceptedOf "x" labelCalls "label",
        (call.scalar? .text).isSome = true)
      ∧ (((labelledSession labelled.evaluate c).acceptedOf "x" labelCalls "label").eraseDupsBy
          (SetterCall.repeats none)).filterMap (·.scalar? .text)
        = [.text "one" (some "en"), .text "three" none] := by
    decide +kernel
  rw [← resolve_eq_evaluate] at hfound
  obtain ⟨c, hc, p, -, hp, hlist, htype, hlength, hgiven, hvalues⟩ := hfound
  have hread := (read_after_build hc (s := labelledSession labelled.resolve.1 c) rfl hp htype
    (by simp [ScalarType.exactDatatypes]) (x := "x") rfl rfl
    (Builder.unknown_empty _) labelCalls hgiven .common).1
  rw [if_pos hlist, hvalues] at hread
  exact ⟨c, hc, hlength, hread⟩

end

end Ontology

end ShapeForge
