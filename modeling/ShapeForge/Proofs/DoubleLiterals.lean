import ShapeForge.Platform.Standard
import ShapeForge.Proofs.IntegerBounds
import ShapeForge.Proofs.LexicalForms
import ShapeForge.Proofs.SourceNumbers
import ShapeForge.Proofs.ViolationReports

/-!
# Literals of doubles

A literal of a double keeps the text that the emitted source has for its value, not the one that it
was made of (`Rdf.Literal.lexical_typed_real`). For a finite double this is a decimal, which is read
as the same double again (`Double.denotes_text`). For the other ones it is a word of the source,
which is no lexical form. So of all forms exactly the decimals of finite doubles can be read in a
literal (`Scalar.FiniteForm`).
-/

namespace ShapeForge

open Rdf (Literal Term)
open Scalar (Sign Unsigned)

/-! ## Texts of finite doubles -/

namespace Scalar

theorem isExponent_eq (cs : List Char) : Numeral.isExponent cs = isExponent cs := by
  rcases cs with _ | ⟨c, rest⟩
  · rfl
  · simp [Numeral.isExponent, isExponent, Numeral.isDigits, Bool.and_assoc]

/-- Every number of the source is a decimal form. -/
theorem isDecimalForm_of_isNumeral {s : String} (h : Numeral.isNumeral s = true) :
    isDecimalForm s = true := by
  rw [Numeral.isNumeral] at h
  have hsign : (Numeral.takeSign s.toList).2
      = if s.toList.head? = some '-' then s.toList.tail else s.toList := by
    rcases hs : s.toList with _ | ⟨c, rest⟩
    · rfl
    by_cases hminus : c = '-'
    · simp [hminus, Numeral.takeSign]
    by_cases hplus : c = '+'
    · -- A plus is no digit, so it cannot start a number of the source.
      simp [hs, hplus, Numeral.isUnsigned] at h
    · simp [Numeral.takeSign, hminus, hplus]
  rw [isDecimalForm, hsign]
  generalize (if s.toList.head? = some '-' then s.toList.tail else s.toList) = cs at h ⊢
  simp only [Numeral.isUnsigned, Bool.and_eq_true, isExponent_eq] at h
  obtain ⟨⟨hwhole, -⟩, hexponent⟩ := h
  simp only [List.span_eq_takeWhile_dropWhile]
  rcases hrest : cs.dropWhile Char.isDigit with _ | ⟨c, rest⟩
  · simpa [isExponent] using hwhole
  · by_cases hpoint : c = '.'
    · simp_all
    · simp_all

end Scalar

namespace Double

/-- A finite double is written as a decimal, and this decimal stands for it. -/
theorem denotes_text {negative : Bool} {m : ℕ} {q : ℤ} (h : (finite negative m q).Canonical) :
    ScalarType.Denotes .real (finite negative m q).text (.real (finite negative m q)) := by
  obtain ⟨sign, cs, minus, c, e, hs, hsign, hcs⟩ :=
    Scalar.exists_unsigned (Scalar.isDecimalForm_of_isNumeral (isNumeral_text negative m q))
  have hread := Numeral.double?_text h
  rw [Scalar.double?_of_unsigned hs hsign hcs, Option.some.injEq] at hread
  have hdenotes := ScalarType.Denotes.decimal hs hsign hcs
  rwa [hread] at hdenotes

/-- The texts of the other doubles are words of the source, and no lexical forms. -/
theorem denotes_text_iff {d : Double} (h : d.Canonical) :
    (∃ v, ScalarType.Denotes .real d.text v) ↔ ∃ negative m q, d = .finite negative m q := by
  simp only [← ScalarType.read_real_iff]
  rcases d with ⟨negative, m, q⟩ | negative | _
  · exact iff_of_true ⟨_, ScalarType.read_real_iff.2 (denotes_text h)⟩ ⟨negative, m, q, rfl⟩
  · have hrefused : ∃ e, ScalarType.real.read (infinite negative).text = .error e := by
      cases negative <;> exact ⟨_, rfl⟩
    obtain ⟨e, he⟩ := hrefused
    exact iff_of_false (by simp [he]) (by simp)
  · have hrefused : ScalarType.real.read nan.text = .error (.malformed .real "nan") := rfl
    exact iff_of_false (by simp [hrefused]) (by simp)

end Double

/-! ## Literals -/

namespace Scalar

theorem double?_of_denotes {s : String} {d : Double} (h : ScalarType.Denotes .real s (.real d)) :
    Numeral.double? s = some d := by
  cases h with
  | decimal hs hsign hcs => exact double?_of_unsigned hs hsign hcs
  | infinite hmem =>
    simp only [List.mem_cons, List.not_mem_nil, or_false] at hmem
    rcases hmem with rfl | rfl <;> decide
  | negInfinite => decide
  | nan => decide

/-- A decimal that is rounded to a finite double. -/
def FiniteForm (s : String) : Prop :=
  ∃ sign cs negative c e, s.toList = sign ++ cs ∧ Sign sign negative ∧ Unsigned cs c e
    ∧ (c : ℚ) * 10 ^ e < Double.leastInfinite

theorem finiteForm_iff {s : String} {d : Double} (h : ScalarType.Denotes .real s (.real d)) :
    FiniteForm s ↔ ∃ negative m q, d = .finite negative m q := by
  have hread := double?_of_denotes h
  constructor
  · rintro ⟨sign, cs, negative, c, e, hs, hsign, hcs, hlt⟩
    rw [double?_of_unsigned hs hsign hcs, Option.some.injEq] at hread
    subst hread
    rcases hd : Double.ofDecimal negative c e with ⟨minus, m, q⟩ | minus | _
    · exact ⟨minus, m, q, rfl⟩
    · exact absurd (Double.ofDecimal_infinite_iff.1 ⟨minus, hd⟩) (not_le.2 hlt)
    · exact absurd hd (Double.ofDecimal_ne_nan negative c e)
  · rintro ⟨negative, m, q, rfl⟩
    generalize hv : ScalarValue.real (.finite negative m q) = v at h
    cases h with
    | @decimal _ _ _ minus c e hs hsign hcs =>
      refine ⟨_, _, _, _, _, hs, hsign, hcs, not_le.1 fun hle => ?_⟩
      have hinfinite : ∃ sign, Double.ofDecimal minus c e = .infinite sign :=
        Double.ofDecimal_infinite_iff.2 hle
      obtain ⟨sign, hsign⟩ := hinfinite
      simp [hsign] at hv
    | infinite _ => cases hv
    | negInfinite => cases hv
    | nan => cases hv

end Scalar

namespace Rdf

/-- The datatypes whose literals are doubles. -/
def realDatatypes : List String := [xsd "double", xsd "float"]

theorem DatatypeFamily.of_real {datatype : String} (h : datatype ∈ realDatatypes) :
    DatatypeFamily.of? datatype = some .double := by
  simp only [realDatatypes, List.mem_cons, List.not_mem_nil, or_false] at h
  rcases h with rfl | rfl <;> decide

/-- A literal of a double has the text of the double in the source. -/
theorem Literal.lexical_typed_real [Rdf.Datatypes] {s datatype : String} {d : Double}
    (h : ScalarType.Denotes .real s (.real d)) (hdatatype : datatype ∈ realDatatypes) :
    (Literal.typed s datatype).lexical = d.text := by
  rw [Literal.typed, formOf, DatatypeFamily.of_real hdatatype]
  dsimp only
  rw [valueOf, Scalar.double?_of_denotes h]
  rfl

/-- Of the literals of doubles those of finite ones can be read, as the double that their form
stands for. -/
theorem Literal.read_typed_real_iff [Rdf.Datatypes] {s datatype : String} {d : Double}
    {v : ScalarValue}
    (h : ScalarType.Denotes .real s (.real d)) (hdatatype : datatype ∈ realDatatypes) :
    ScalarType.real.read (Literal.typed s datatype).lexical = .ok v ↔
      Scalar.FiniteForm s ∧ v = .real d := by
  have hcanonical := Numeral.canonical_of_double? (Scalar.double?_of_denotes h)
  rw [Literal.lexical_typed_real h hdatatype, Scalar.finiteForm_iff h]
  constructor
  · intro hread
    obtain ⟨negative, m, q, rfl⟩ :=
      (Double.denotes_text_iff hcanonical).1 ⟨v, ScalarType.read_real_iff.1 hread⟩
    rw [ScalarType.read_real_iff.2 (Double.denotes_text hcanonical)] at hread
    exact ⟨⟨negative, m, q, rfl⟩, (Except.ok.inj hread).symm⟩
  · rintro ⟨⟨negative, m, q, rfl⟩, rfl⟩
    exact ScalarType.read_real_iff.2 (Double.denotes_text hcanonical)

end Rdf

/-! ## Checks of literals -/

namespace Rule

variable {r : Rule} {focus : String}

theorem constraint_mem_of_mem_flatten {lexical : String} {number : Bound}
    {checks : List BoundCheck} {each : List (List Violation)}
    (h : List.Forall₂ (fun check found => r.boundViolation focus lexical number check = .ok found)
      checks each) :
    ∀ x ∈ each.flatten, x.constraint ∈ checks.map BoundCheck.constraint := by
  induction h with
  | nil => simp
  | cons hfirst _ ih =>
    intro x hx
    rw [List.flatten_cons, List.mem_append] at hx
    rcases hx with hx | hx
    · rw [constraint_of_mem_boundViolation r focus lexical number hfirst x hx]
      exact List.mem_cons_self
    · exact List.mem_cons_of_mem _ (ih x hx)

/-- Once the type is right, only bounds can be violated. -/
theorem constraint_of_mem_typeViolations {type : ScalarType} {lexical : String} {v : ScalarValue}
    (htype : r.valueType = .scalar type) (hread : type.read lexical = .ok v)
    {found : List Violation} (h : r.typeViolations focus lexical = .ok found) :
    ∀ x ∈ found, x.constraint ∈ (boundChecks r.constraints).map BoundCheck.constraint := by
  have hcases : found = [] ∨ ∃ number each,
      (boundChecks r.constraints).mapM (r.boundViolation focus lexical number) = .ok each
        ∧ found = each.flatten := by
    unfold typeViolations at h
    split at h
    · exact .inl (Except.ok.inj h).symm
    · exact .inl (Except.ok.inj h).symm
    · rename_i type' _ htype'
      obtain rfl : type = type' := ValueType.scalar.inj (htype.symm.trans htype')
      simp only [hread] at h
      rcases hnumber : v.number? with _ | number
      · simp only [hnumber, Except.ok.injEq] at h
        exact .inl h.symm
      · simp only [hnumber, bind_ok_iff] at h
        obtain ⟨each, heach, h⟩ := h
        exact .inr ⟨number, each, heach, (Except.ok.inj h).symm⟩
  rcases hcases with rfl | ⟨number, each, heach, rfl⟩
  · simp
  · exact constraint_mem_of_mem_flatten (mapM_ok_iff.1 heach)

theorem datatype_mem_typeViolations_iff {type : ScalarType} (htype : r.valueType = .scalar type)
    {lexical : String} {found : List Violation}
    (h : r.typeViolations focus lexical = .ok found) :
    (∃ x ∈ found, x.constraint = "datatype") ↔ ¬ ∃ v, type.read lexical = .ok v := by
  rcases hread : type.read lexical with e | v
  · have hfound : ∃ message, found = [r.violation focus "datatype" message (some lexical)] := by
      cases type with
      | text => simp [ScalarType.read] at hread
      | _ =>
        simp only [typeViolations, htype, hread, Except.ok.injEq] at h
        exact ⟨_, h.symm⟩
    obtain ⟨message, rfl⟩ := hfound
    exact iff_of_true ⟨_, List.mem_singleton_self _, rfl⟩ (by simp)
  · refine iff_of_false ?_ (not_not.2 ⟨v, rfl⟩)
    rintro ⟨x, hx, hdatatype⟩
    have hmem := constraint_of_mem_typeViolations htype hread h x hx
    rw [hdatatype] at hmem
    change "datatype" ∈ ["minInclusive", "maxInclusive", "minExclusive", "maxExclusive"] at hmem
    revert hmem
    decide

/-- A check reports the type exactly for the literals that cannot be read. -/
theorem datatype_mem_valueViolations_iff [Platform] {type : ScalarType}
    (htype : r.valueType = .scalar type) {l : Literal} {found : List Violation}
    (h : r.valueViolations focus (.literal l) = .ok found) :
    (∃ x ∈ found, x.constraint = "datatype") ↔ ¬ ∃ v, type.read l.lexical = .ok v := by
  simp only [valueViolations, Term.isLiteral, Term.text, if_true, bind_ok_iff] at h
  obtain ⟨lengths, hlengths, patterns, hpatterns, types, htypes, h⟩ := h
  rw [← Except.ok.inj h, ← datatype_mem_typeViolations_iff htype htypes]
  constructor
  · rintro ⟨x, hx, hdatatype⟩
    refine ⟨x, (List.mem_append.1 hx).resolve_left fun hx => ?_, hdatatype⟩
    exact constraint_ne_of_mem_untyped (by decide) hlengths hpatterns hx hdatatype
  · rintro ⟨x, hx, hdatatype⟩
    exact ⟨x, List.mem_append_right _ hx, hdatatype⟩

/-- The check of a value returns if the limits of its length can be shown. -/
theorem exists_valueViolations [Platform] (hpattern : r.PatternReads) (hbounds : r.DoubleBounds)
    (hleast : r.Shows .minLength) (hmost : r.Shows .maxLength) (t : Term) :
    ∃ found, r.valueViolations focus t = .ok found := by
  have hchecks := checks_value [] focus hpattern hbounds t
  generalize r.valueViolations focus t = outcome at hchecks ⊢
  cases hchecks with
  | found => exact ⟨_, rfl⟩
  | @hidden s hs _ hhides =>
    -- No other constraint on single values has a limit.
    obtain ⟨k, hmem, rfl⟩ := List.mem_map.1 hs
    cases k with
    | minLength => exact absurd hleast hhides
    | maxLength => exact absurd hmost hhides
    | minCount | maxCount => simp [Component.ofValue, BoundKind.all] at hmem
    | _ => exact absurd (shows_of_limit?_eq_none rfl) hhides

end Rule

/-- Of the texts of doubles exactly the decimals of finite ones can be read in a literal. They are
read as the double that they stand for, and no check reports their type; of the others every check
does. Checks fail only for a pattern that is no regular expression, an integer bound, or a limit of
the length that has more digits than are written. -/
theorem Rdf.Literal.reads_iff_finiteForm [Platform] {s datatype : String} {d : Double}
    (h : ScalarType.Denotes .real s (.real d)) (hdatatype : datatype ∈ realDatatypes) :
    (∀ v, (ValueType.scalar .real).readTerm? (.literal (.typed s datatype)) = some v ↔
      Scalar.FiniteForm s ∧ v = .real d)
    ∧ ∀ (r : Rule) (focus : String), r.valueType = .scalar .real →
      (∀ found, r.valueViolations focus (.literal (.typed s datatype)) = .ok found →
        ((∃ x ∈ found, x.constraint = "datatype") ↔ ¬ Scalar.FiniteForm s))
      ∧ (r.PatternReads → r.DoubleBounds → r.Shows .minLength → r.Shows .maxLength →
        ∃ found, r.valueViolations focus (.literal (.typed s datatype)) = .ok found) := by
  have hoption : ∀ {x : Except LexicalError ScalarValue} {v : ScalarValue},
      x.toOption = some v ↔ x = .ok v := by
    rintro (e | a) v <;> simp [Except.toOption]
  refine ⟨fun v => ?_, fun r focus hr => ⟨fun found hfound => ?_, ?_⟩⟩
  · change (ScalarType.real.read _).toOption = some v ↔ _
    rw [hoption, read_typed_real_iff h hdatatype]
  · rw [Rule.datatype_mem_valueViolations_iff hr hfound]
    simp [read_typed_real_iff h hdatatype]
  · intro hpattern hbounds hleast hmost
    exact Rule.exists_valueViolations hpattern hbounds hleast hmost _

section

attribute [local instance] Platform.standard

/-- A thousand is read. An infinity and a number beyond all doubles are not, and are reported. -/
theorem Rdf.Literal.thousand_reads_infinities_unread :
    (ScalarType.Denotes .real "1e3" (.real (.ofInt 1000)) ∧ xsd "double" ∈ realDatatypes
      ∧ Scalar.FiniteForm "1e3"
      ∧ (ValueType.scalar .real).readTerm? (.literal (.typed "1e3" (xsd "double")))
        = some (.real (.ofInt 1000)))
    ∧ ∀ s ∈ ["INF", "1e999"], ScalarType.Denotes .real s (.real (.infinite false))
      ∧ ¬ Scalar.FiniteForm s
      ∧ (ValueType.scalar .real).readTerm? (.literal (.typed s (xsd "double"))) = none
      ∧ ∃ found, (Rule.mk "size" "size" (.scalar .real) {}).valueViolations "n"
          (.literal (.typed s (xsd "double"))) = .ok found
        ∧ ∃ x ∈ found, x.constraint = "datatype" := by
  have hthousand : ScalarType.Denotes .real "1e3" (.real (.ofInt 1000)) :=
    Scalar.real_ok_iff.1 (by decide +kernel)
  have hread : (ValueType.scalar .real).readTerm? (.literal (.typed "1e3" (xsd "double")))
      = some (.real (.ofInt 1000)) := by
    decide +kernel
  have hdouble : xsd "double" ∈ realDatatypes := List.mem_cons_self
  refine ⟨⟨hthousand, hdouble, (((reads_iff_finiteForm hthousand hdouble).1 _).1 hread).1, hread⟩,
    fun s hs => ?_⟩
  have hdenotes : ScalarType.Denotes .real s (.real (.infinite false)) := by
    refine Scalar.real_ok_iff.1 ?_
    revert s
    decide +kernel
  have hnone : (ValueType.scalar .real).readTerm? (.literal (.typed s (xsd "double"))) = none := by
    clear hdenotes
    revert s
    decide +kernel
  obtain ⟨hreads, hchecks⟩ := reads_iff_finiteForm hdenotes hdouble
  have hform : ¬ Scalar.FiniteForm s := fun hform => by
    rw [(hreads (.real (.infinite false))).2 ⟨hform, rfl⟩] at hnone
    cases hnone
  -- The rule has neither a pattern nor bounds, so the check returns.
  obtain ⟨hreported, hreturns⟩ :=
    hchecks (Rule.mk "size" "size" (.scalar .real) {}) "n" rfl
  obtain ⟨found, hfound⟩ := hreturns (by simp [Rule.PatternReads])
    (by rintro ⟨⟩ <;> simp [BoundKind.bound]) nofun nofun
  exact ⟨hdenotes, hform, hnone, found, hfound, (hreported found hfound).2 hform⟩

end

end ShapeForge
