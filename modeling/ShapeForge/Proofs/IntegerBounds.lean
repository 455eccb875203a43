import ShapeForge.Platform.Standard
import ShapeForge.Proofs.Declarations
import ShapeForge.Proofs.DoubleTexts
import ShapeForge.Proofs.Extraction

/-!
# Integers as bounds

A bound is kept as a double, whatever number stands in the document, and an integer is compared
with a double exactly. So a rule enforces the integer that is nearest to the one of the document
among those that a mantissa holds, and the integer of the document itself exactly if it is one of
them (`Ontology.integer_bound_enforced_iff`). All integers up to `2 ^ 53` are.
-/

namespace ShapeForge

open Rdf (Graph Term Literal)

/-! ## Kinds of bounds -/

inductive BoundKind where
  | minInclusive
  | maxInclusive
  | minExclusive
  | maxExclusive

namespace BoundKind

/-- The constraint component of a bound. -/
def name : BoundKind → String
  | minInclusive => "minInclusive"
  | maxInclusive => "maxInclusive"
  | minExclusive => "minExclusive"
  | maxExclusive => "maxExclusive"

def bound (c : Constraints) : BoundKind → Option Bound
  | minInclusive => c.minInclusive
  | maxInclusive => c.maxInclusive
  | minExclusive => c.minExclusive
  | maxExclusive => c.maxExclusive

/-- The integer is on the wrong side of the bound. -/
def Rejects (v n : ℤ) : BoundKind → Prop
  | minInclusive => v < n
  | maxInclusive => n < v
  | minExclusive => v ≤ n
  | maxExclusive => n ≤ v

/-- Next to a bound there is an integer that tells it from any other bound. -/
theorem exists_tells_apart (k : BoundKind) {n m : ℤ} (h : n ≠ m) :
    ∃ v, |v - n| ≤ 1 ∧ ¬ (k.Rejects v n ↔ k.Rejects v m) := by
  rcases lt_or_gt_of_ne h with hlt | hlt
  · rcases k
    · exact ⟨n, by simp, by simp only [Rejects]; omega⟩
    · exact ⟨n + 1, by simp, by simp only [Rejects]; omega⟩
    · exact ⟨n + 1, by simp, by simp only [Rejects]; omega⟩
    · exact ⟨n, by simp, by simp only [Rejects]; omega⟩
  · rcases k
    · exact ⟨n - 1, by simp, by simp only [Rejects]; omega⟩
    · exact ⟨n, by simp, by simp only [Rejects]; omega⟩
    · exact ⟨n, by simp, by simp only [Rejects]; omega⟩
    · exact ⟨n - 1, by simp, by simp only [Rejects]; omega⟩

end BoundKind

/-! ## Integers against doubles -/

namespace Bound

variable {d : Double} {n : ℤ} (h : d.value? = some (n : ℚ)) (v : ℤ)

include h

theorem compare?_int_double : (int v).compare? (double d) = some (cmp v n) := by
  rw [compare?, Double.compareInt?_eq h, Int.cast_strictMono.cmp_map_eq]

theorem compare?_double_int : (double d).compare? (int v) = some (cmp n v) := by
  rw [compare?, Double.compareInt?_eq h, Int.cast_strictMono.cmp_map_eq, Option.map_some, cmp_swap]

theorem int_le_double : (int v).le (double d) = decide (v ≤ n) := by
  rw [Bool.eq_iff_iff]
  simp [le, compare?_int_double h, cmp_eq_lt_iff, cmp_eq_eq_iff, le_iff_lt_or_eq]

theorem double_le_int : (double d).le (int v) = decide (n ≤ v) := by
  rw [Bool.eq_iff_iff]
  simp [le, compare?_double_int h, cmp_eq_lt_iff, cmp_eq_eq_iff, le_iff_lt_or_eq]

theorem int_lt_double : (int v).lt (double d) = decide (v < n) := by
  rw [Bool.eq_iff_iff]
  simp [lt, compare?_int_double h, cmp_eq_lt_iff]

theorem double_lt_int : (double d).lt (int v) = decide (n < v) := by
  rw [Bool.eq_iff_iff]
  simp [lt, compare?_double_int h, cmp_eq_lt_iff]

end Bound

namespace Rule

/-! ## What is found first -/

/-- The first violation is one of this constraint. -/
def FirstOf (constraint : String) (found : List Violation) : Prop :=
  ∃ x, found.head? = some x ∧ x.constraint = constraint

variable {constraint : String} {a b : List Violation}

theorem firstOf_append_of_ne (h : ∀ x ∈ a, x.constraint ≠ constraint) :
    FirstOf constraint (a ++ b) ↔ a = [] ∧ FirstOf constraint b := by
  rcases a with _ | ⟨x, a⟩
  · simp
  · simp [FirstOf, h x]

theorem firstOf_append_of_eq (h : ∀ x ∈ a, x.constraint = constraint)
    (hb : ∀ x ∈ b, x.constraint ≠ constraint) : FirstOf constraint (a ++ b) ↔ a ≠ [] := by
  rcases a with _ | ⟨x, a⟩
  · simp only [List.nil_append, ne_eq, not_true, iff_false]
    rintro ⟨x, hx, heq⟩
    exact hb x (List.mem_of_mem_head? hx) heq
  · simp [FirstOf, h x]

/-- A value passes a test if there is no bound, or the value is on its right side. -/
def BoundCheck.Passes (check : BoundCheck) (value : Bound) : Prop :=
  ∀ bound, check.bound = some bound → check.passes value bound = true

/-- All bounds are doubles, as they are when they are read from a document. -/
def BoundCheck.Doubles (check : BoundCheck) : Prop :=
  ∀ bound, check.bound = some bound → ∃ d, bound = .double d

variable (r : Rule) (focus lexical : String) (value : Bound)

/-- What a test finds concerns its own constraint only. -/
theorem constraint_of_mem_boundViolation {check : BoundCheck} {found : List Violation}
    (h : r.boundViolation focus lexical value check = .ok found) :
    ∀ x ∈ found, x.constraint = check.constraint := by
  unfold boundViolation at h
  rcases hbound : check.bound with _ | bound
  · simp only [hbound, Except.ok.injEq] at h
    simp [← h]
  · simp only [hbound] at h
    split_ifs at h
    · rw [← Except.ok.inj h]
      simp
    · rw [bind_ok_iff] at h
      obtain ⟨shown, -, h⟩ := h
      rw [← Except.ok.inj h]
      simp [violation]

/-- A test finds something exactly if the value fails it. -/
structure FoundBy (check : BoundCheck) (found : List Violation) : Prop where
  own : ∀ x ∈ found, x.constraint = check.constraint
  empty : found = [] ↔ check.Passes value

theorem exists_foundBy {check : BoundCheck} (h : check.Doubles) :
    ∃ found, r.boundViolation focus lexical value check = .ok found
      ∧ FoundBy value check found := by
  have hnil : r.boundViolation focus lexical value check = .ok [] ↔ check.Passes value :=
    boundViolation_eq_nil_iff
  rcases hresult : r.boundViolation focus lexical value check with e | found
  · unfold boundViolation at hresult
    rcases hbound : check.bound with _ | bound
    · simp [hbound] at hresult
    · obtain ⟨d, rfl⟩ := h bound hbound
      simp only [hbound] at hresult
      split_ifs at hresult
      simp [Bound.shown, bind, Except.bind, pure, Except.pure] at hresult
  · exact ⟨found, rfl, constraint_of_mem_boundViolation r focus lexical value hresult,
      by rw [← hnil, hresult, Except.ok.injEq]⟩

variable {value}

/-- Together, the tests report a constraint exactly if the value fails a test of it. -/
theorem mem_flatten_foundBy {checks : List BoundCheck} {found : List (List Violation)}
    (h : List.Forall₂ (FoundBy value) checks found) :
    (∃ x ∈ found.flatten, x.constraint = constraint) ↔
      ∃ check ∈ checks, check.constraint = constraint ∧ ¬ check.Passes value := by
  induction h with
  | nil => simp
  | @cons check found checks rest hfirst _ ih =>
    have hown : (∃ x ∈ found, x.constraint = constraint) ↔
        check.constraint = constraint ∧ ¬ check.Passes value := by
      rw [← hfirst.empty]
      constructor
      · rintro ⟨x, hx, rfl⟩
        exact ⟨(hfirst.own x hx).symm, List.ne_nil_of_mem hx⟩
      · rintro ⟨rfl, hne⟩
        obtain ⟨x, hx⟩ := List.exists_mem_of_ne_nil found hne
        exact ⟨x, hx, hfirst.own x hx⟩
    simp only [List.flatten_cons, List.mem_append, or_and_right, exists_or, List.mem_cons,
      exists_eq_left, ih, hown]

/-- The tests report a constraint first exactly if the value passes those before its test. -/
theorem firstOf_flatten_foundBy {checks : List BoundCheck} {found : List (List Violation)}
    (hnodup : (checks.map BoundCheck.constraint).Nodup)
    (h : List.Forall₂ (FoundBy value) checks found) :
    FirstOf constraint found.flatten ↔
      (∀ check ∈ checks.takeWhile (·.constraint != constraint), check.Passes value)
        ∧ ∃ check ∈ checks, check.constraint = constraint ∧ ¬ check.Passes value := by
  induction h with
  | nil => simp [FirstOf]
  | @cons check found checks rest hfirst hrest ih =>
    rw [List.map_cons, List.nodup_cons] at hnodup
    rw [List.flatten_cons]
    by_cases hname : check.constraint = constraint
    · -- No later test is of this constraint.
      have hlater : ∀ later ∈ checks, later.constraint ≠ constraint := by
        rintro later hlater rfl
        exact hnodup.1 (hname ▸ List.mem_map_of_mem hlater)
      have hothers : ∀ x ∈ rest.flatten, x.constraint ≠ constraint := by
        intro x hx heq
        obtain ⟨later, hmem, hlaterName, -⟩ := (mem_flatten_foundBy hrest).1 ⟨x, hx, heq⟩
        exact hlater later hmem hlaterName
      rw [firstOf_append_of_eq (fun x hx => (hfirst.own x hx).trans hname) hothers, ne_eq,
        hfirst.empty, List.takeWhile_cons_of_neg (by simp [hname])]
      constructor
      · intro hfails
        exact ⟨by simp, check, List.mem_cons_self, hname, hfails⟩
      · rintro ⟨-, other, hmem, hotherName, hfails⟩
        rcases List.mem_cons.1 hmem with rfl | hmem
        · exact hfails
        · exact absurd hotherName (hlater other hmem)
    · rw [firstOf_append_of_ne fun x hx heq => hname ((hfirst.own x hx).symm.trans heq),
        ih hnodup.2, hfirst.empty, List.takeWhile_cons_of_pos (by simpa using hname),
        List.forall_mem_cons, and_assoc]
      simp [hname]

/-! ## The check of an integer -/

/-- The numeral is not too long to be read. -/
def Readable (v : ℤ) : Prop := (Numeral.digitsOf v).length ≤ Numeral.maxIntegerDigits

variable {r focus lexical} {v : ℤ}

theorem boundChecks_nodup (c : Constraints) :
    ((boundChecks c).map BoundCheck.constraint).Nodup := by
  change ["minInclusive", "maxInclusive", "minExclusive", "maxExclusive"].Nodup
  decide

/-- What the type and the bounds find for an integer. -/
theorem exists_typeViolations (htype : r.valueType = .scalar .integer)
    (hdoubles : ∀ check ∈ boundChecks r.constraints, check.Doubles)
    (hconstraint : constraint ≠ "datatype") (focus : String) (v : ℤ) :
    ∃ found, r.typeViolations focus (toString v) = .ok found
      ∧ ((∃ x ∈ found, x.constraint = constraint) ↔ Readable v
        ∧ ∃ check ∈ boundChecks r.constraints, check.constraint = constraint
          ∧ ¬ check.Passes (.int v))
      ∧ (FirstOf constraint found ↔ Readable v
        ∧ (∀ check ∈ (boundChecks r.constraints).takeWhile (·.constraint != constraint),
            check.Passes (.int v))
        ∧ ∃ check ∈ boundChecks r.constraints, check.constraint = constraint
          ∧ ¬ check.Passes (.int v)) := by
  unfold typeViolations
  rw [htype]
  by_cases hreadable : Readable v
  · have hread := (Scalar.integer_toString v).trans (if_pos hreadable)
    choose! found hfound hby using fun check (h : check ∈ boundChecks r.constraints) =>
      exists_foundBy r focus (toString v) (.int v) (hdoubles check h)
    have hall : List.Forall₂ (FoundBy (.int v)) (boundChecks r.constraints)
        ((boundChecks r.constraints).map found) := by
      rw [List.forall₂_map_right_iff, List.forall₂_same]
      exact hby
    refine ⟨((boundChecks r.constraints).map found).flatten, ?_, ?_, ?_⟩
    · simp only [ScalarType.read, hread, Except.map, ScalarValue.number?, mapM_ok_of_forall hfound]
      rfl
    · rw [mem_flatten_foundBy hall, and_iff_right hreadable]
    · rw [firstOf_flatten_foundBy (boundChecks_nodup _) hall, and_iff_right hreadable]
  · have hread := (Scalar.integer_toString v).trans (if_neg hreadable)
    simp only [ScalarType.read, hread, Except.map]
    refine ⟨_, rfl, ?_, ?_⟩
    · simp [violation, hreadable, hconstraint.symm]
    · simp [FirstOf, violation, hreadable, hconstraint.symm]

theorem constraint_of_mem_lengthViolations {found : List Violation} {x : Violation}
    (h : r.lengthViolations focus lexical = .ok found) (hx : x ∈ found) :
    x.constraint = "minLength" ∨ x.constraint = "maxLength" := by
  obtain ⟨tooShort, hshort, h⟩ := bind_ok_iff.1 h
  obtain ⟨tooLong, hlong, h⟩ := bind_ok_iff.1 h
  rw [← Except.ok.inj h, List.mem_append] at hx
  refine hx.imp (fun hx => ?_) (fun hx => ?_)
  · obtain ⟨_, -, -, rfl⟩ := of_mem_limitViolation hshort hx
    rfl
  · obtain ⟨_, -, -, rfl⟩ := of_mem_limitViolation hlong hx
    rfl

theorem constraint_of_mem_patternViolations [Platform] {found : List Violation} {x : Violation}
    (h : r.patternViolations focus lexical = .ok found) (hx : x ∈ found) :
    x.constraint = "pattern" := by
  unfold patternViolations at h
  split at h
  · rw [← Except.ok.inj h] at hx
    simp at hx
  · split at h
    · cases h
    · split_ifs at h
      · rw [← Except.ok.inj h] at hx
        simp at hx
      · rw [← Except.ok.inj h] at hx
        rw [List.mem_singleton.1 hx]
        rfl

theorem constraint_of_mem_memberViolations {x : Violation}
    (h : x ∈ r.memberViolations focus lexical) : x.constraint = "in" := by
  unfold memberViolations at h
  split at h
  · simp at h
  · split_ifs at h
    · simp at h
    · rw [List.mem_singleton.1 h]
      rfl

/-- An integer passes whatever is checked before the bound of a constraint. -/
structure PassesBefore [Platform] (r : Rule) (focus : String) (v : ℤ) (constraint : String) :
    Prop where
  length : r.lengthViolations focus (toString v) = .ok []
  pattern : r.patternViolations focus (toString v) = .ok []
  member : r.memberViolations focus (toString v) = []
  bounds : ∀ check ∈ (boundChecks r.constraints).takeWhile (·.constraint != constraint),
    check.Passes (.int v)

theorem constraint_ne_of_mem_untyped [Platform] {ls ps : List Violation} {x : Violation}
    (hconstraint : constraint ∉ ["minLength", "maxLength", "pattern", "in"])
    (hls : r.lengthViolations focus lexical = .ok ls)
    (hps : r.patternViolations focus lexical = .ok ps)
    (hx : x ∈ ls ++ ps ++ r.memberViolations focus lexical) :
    x.constraint ≠ constraint := by
  rintro rfl
  refine hconstraint ?_
  rw [List.mem_append, List.mem_append] at hx
  rcases hx with (hx | hx) | hx
  · rcases constraint_of_mem_lengthViolations hls hx with h | h <;> simp [h]
  · simp [constraint_of_mem_patternViolations hps hx]
  · simp [constraint_of_mem_memberViolations hx]

theorem firstViolation?_iff [Platform] (htype : r.valueType = .scalar .integer)
    (hdoubles : ∀ check ∈ boundChecks r.constraints, check.Doubles)
    (hconstraint : constraint ∉ ["minLength", "maxLength", "pattern", "in", "datatype"])
    {l : Literal} (hl : l.lexical = toString v) :
    (∃ x, r.firstViolation? focus (.literal l) = .ok (some x) ∧ x.constraint = constraint) ↔
      (Readable v ∧ ∃ check ∈ boundChecks r.constraints, check.constraint = constraint
        ∧ ¬ check.Passes (.int v)) ∧ r.PassesBefore focus v constraint := by
  have hdatatype : constraint ≠ "datatype" := fun h => hconstraint (by simp [h])
  have huntyped : constraint ∉ ["minLength", "maxLength", "pattern", "in"] := fun h =>
    hconstraint (List.mem_append_left ["datatype"] h)
  obtain ⟨found, hfound, -, hfirst⟩ := exists_typeViolations htype hdoubles hdatatype focus v
  have hvalue : r.valueViolations focus (.literal l) = (do
      let length ← r.lengthViolations focus (toString v)
      let pattern ← r.patternViolations focus (toString v)
      let type ← r.typeViolations focus (toString v)
      return length ++ pattern ++ r.memberViolations focus (toString v) ++ type) := by
    rw [← hl]
    rfl
  rw [firstViolation?, hvalue, hfound]
  rcases hls : r.lengthViolations focus (toString v) with e | ls
  · -- A length that cannot be shown stops the check.
    constructor
    · rintro ⟨x, hx, -⟩
      simp [bind, Except.bind, Except.map] at hx
    · rintro ⟨-, hpasses⟩
      cases hls.symm.trans hpasses.length
  rcases hps : r.patternViolations focus (toString v) with e | ps
  · -- So does a pattern that cannot be read.
    constructor
    · rintro ⟨x, hx, -⟩
      simp [bind, Except.bind, Except.map] at hx
    · rintro ⟨-, hpasses⟩
      cases hps.symm.trans hpasses.pattern
  have heq : (∃ x, (Except.ok (ls ++ ps ++ r.memberViolations focus (toString v) ++ found)
          : Except CheckError _).map List.head? = .ok (some x) ∧ x.constraint = constraint) ↔
      FirstOf constraint (ls ++ ps ++ r.memberViolations focus (toString v) ++ found) := by
    simp [FirstOf, Except.map]
  refine heq.trans ?_
  rw [firstOf_append_of_ne fun x hx => constraint_ne_of_mem_untyped huntyped hls hps hx, hfirst,
    List.append_eq_nil_iff, List.append_eq_nil_iff]
  constructor
  · rintro ⟨⟨⟨rfl, rfl⟩, hmember⟩, hreadable, hbounds, hfails⟩
    exact ⟨⟨hreadable, hfails⟩, hls, hps, hmember, hbounds⟩
  · rintro ⟨⟨hreadable, hfails⟩, hpasses⟩
    obtain rfl : ls = [] := Except.ok.inj (hls.symm.trans hpasses.length)
    obtain rfl : ps = [] := Except.ok.inj (hps.symm.trans hpasses.pattern)
    exact ⟨⟨⟨rfl, rfl⟩, hpasses.member⟩, hreadable, hpasses.bounds, hfails⟩

/-! ## Enforced bounds -/

/-- A rule rejects the integers on the wrong side of a bound, and no others. A check of one value
reports the bound unless something before it fails. -/
structure Enforces [Platform] (r : Rule) (k : BoundKind) (n : ℤ) : Prop where
  violations : ∀ focus v, ∃ found, r.typeViolations focus (toString v) = .ok found
    ∧ ((∃ x ∈ found, x.constraint = k.name) ↔ Readable v ∧ k.Rejects v n)
  first : ∀ focus v (l : Literal), l.lexical = toString v →
    ((∃ x, r.firstViolation? focus (.literal l) = .ok (some x) ∧ x.constraint = k.name) ↔
      (Readable v ∧ k.Rejects v n) ∧ r.PassesBefore focus v k.name)

theorem exists_failed_check_iff {c : Constraints} {k : BoundKind} {d : Double} {n : ℤ}
    (hbound : k.bound c = some (.double d)) (hvalue : d.value? = some (n : ℚ)) (v : ℤ) :
    (∃ check ∈ boundChecks c, check.constraint = k.name ∧ ¬ check.Passes (.int v)) ↔
      k.Rejects v n := by
  rcases k <;> simp only [BoundKind.bound] at hbound
  · simp [boundChecks, BoundKind.name, BoundCheck.Passes, BoundKind.Rejects, hbound,
      Bound.double_le_int hvalue]
  · simp [boundChecks, BoundKind.name, BoundCheck.Passes, BoundKind.Rejects, hbound,
      Bound.int_le_double hvalue]
  · simp [boundChecks, BoundKind.name, BoundCheck.Passes, BoundKind.Rejects, hbound,
      Bound.double_lt_int hvalue]
  · simp [boundChecks, BoundKind.name, BoundCheck.Passes, BoundKind.Rejects, hbound,
      Bound.int_lt_double hvalue]

theorem enforces_of_value [Platform] {k : BoundKind} {d : Double} {n : ℤ}
    (htype : r.valueType = .scalar .integer)
    (hdoubles : ∀ check ∈ boundChecks r.constraints, check.Doubles)
    (hbound : k.bound r.constraints = some (.double d)) (hvalue : d.value? = some (n : ℚ)) :
    r.Enforces k n where
  violations focus v := by
    have hname : k.name ≠ "datatype" := by cases k <;> decide
    obtain ⟨found, hfound, hmem, -⟩ := exists_typeViolations htype hdoubles hname focus v
    refine ⟨found, hfound, ?_⟩
    rw [hmem, exists_failed_check_iff hbound hvalue]
  first focus v l hl := by
    rw [firstViolation?_iff htype hdoubles (by cases k <;> decide) hl,
      exists_failed_check_iff hbound hvalue]

theorem Enforces.eq [Platform] {k : BoundKind} {n m : ℤ} (hn : r.Enforces k n) (hm : r.Enforces k m)
    (hread : ∀ v, |v - n| ≤ 1 → Readable v) : n = m := by
  by_contra hne
  obtain ⟨v, hv, hdiffer⟩ := k.exists_tells_apart hne
  obtain ⟨found, hfound, hfoundN⟩ := hn.violations "" v
  obtain ⟨found', hfound', hfoundM⟩ := hm.violations "" v
  obtain rfl : found = found' := Except.ok.inj (hfound.symm.trans hfound')
  rw [hfoundN, and_iff_right (hread v hv), and_iff_right (hread v hv)] at hfoundM
  exact hdiffer hfoundM

theorem readable_of_natAbs_le {v : ℤ} (h : v.natAbs ≤ 2 ^ 1024) : Readable v := by
  have hdigits : 2 ^ 1024 < 10 ^ Numeral.maxIntegerDigits := by decide +kernel
  exact (Nat.length_toDigits_le_iff (by norm_num) (by decide)).2 (h.trans_lt hdigits)

end Rule

namespace Shape

variable {g : Graph} {text : String} {node : Term} {c : Constraints}

/-- Each bound is the number of its field. -/
theorem bound_of_constraintsOf [Rdf.Datatypes] (h : constraintsOf g text node = .ok c)
    (k : BoundKind) :
    ∃ found, doubleField? g text node k.name = .ok found ∧ k.bound c = found.map .double := by
  simp only [constraintsOf, bind_ok_iff] at h
  obtain ⟨_, -, _, -, _, -, _, -, _, -, a, ha, b, hb, x, hx, y, hy, h⟩ := h
  rw [← Except.ok.inj h]
  rcases k
  · exact ⟨a, ha, rfl⟩
  · exact ⟨b, hb, rfl⟩
  · exact ⟨x, hx, rfl⟩
  · exact ⟨y, hy, rfl⟩

theorem doubles_of_constraintsOf [Rdf.Datatypes] (h : constraintsOf g text node = .ok c) :
    ∀ check ∈ Rule.boundChecks c, check.Doubles := by
  have hkind : ∀ check ∈ Rule.boundChecks c, ∃ k : BoundKind, check.bound = k.bound c := by
    simp only [Rule.boundChecks, List.forall_mem_cons]
    exact ⟨⟨.minInclusive, rfl⟩, ⟨.maxInclusive, rfl⟩, ⟨.minExclusive, rfl⟩,
      ⟨.maxExclusive, rfl⟩, by simp⟩
  intro check hcheck bound hbound
  obtain ⟨k, hk⟩ := hkind check hcheck
  obtain ⟨found, -, heq⟩ := bound_of_constraintsOf h k
  rw [hk, heq] at hbound
  obtain ⟨d, -, rfl⟩ := Option.map_eq_some_iff.1 hbound
  exact ⟨d, rfl⟩

/-- The number of a field with an integer is the double of this integer, which is finite. -/
theorem doubleField?_of_integer [Rdf.Datatypes] {name : String} {l : Literal} {n : ℤ}
    {found : Option Double}
    (hfield : field? g node name = some (.literal l)) (hl : l.value = .integer n)
    (h : doubleField? g text node name = .ok found) :
    ∃ sign m q, Double.ofInt n = .finite sign m q ∧ found = some (.finite sign m q) := by
  simp only [doubleField?, hfield, readTerm, hl, doubleOf] at h
  rcases hn : Double.ofInt n with ⟨sign, m, q⟩ | sign | _
  · rw [hn] at h
    exact ⟨sign, m, q, rfl, (Except.ok.inj h).symm⟩
  · rw [hn] at h
    cases h
  · -- Rounding a ratio always gives a number.
    unfold Double.ofInt Double.ofRatio at hn
    dsimp only at hn
    split_ifs at hn
    cases hn

end Shape

namespace Double

theorem natAbs_lt_of_value {d : Double} {n : ℤ} (hcanonical : d.Canonical)
    (h : d.value? = some (n : ℚ)) : n.natAbs < 2 ^ 1024 := by
  have hlt := abs_value_lt hcanonical h
  rw [← Int.cast_abs, Int.abs_eq_natAbs, Int.cast_natCast] at hlt
  exact_mod_cast hlt

/-- Only an integer that fits is the value of its own double. -/
theorem fitsMantissa_iff_eq {n m : ℤ} (hm : FitsMantissa m)
    (hnear : ∀ j, FitsMantissa j → |n - m| ≤ |n - j|) : FitsMantissa n ↔ m = n := by
  constructor
  · intro hn
    have h := hnear n hn
    rw [sub_self, abs_zero, abs_nonpos_iff] at h
    omega
  · rintro rfl
    exact hm

end Double

/-- A rule that has the double of an integer as a bound enforces what is nearest to the integer. -/
theorem Rule.enforces_of_ofInt [Platform] {r : Rule} {k : BoundKind} {n : ℤ} {sign : Bool} {m : ℕ}
    {q : ℤ} (htype : r.valueType = .scalar .integer)
    (hdoubles : ∀ check ∈ boundChecks r.constraints, check.Doubles)
    (hbound : k.bound r.constraints = some (.double (.finite sign m q)))
    (hn : Double.ofInt n = .finite sign m q) :
    ∃ N : ℤ, (Double.finite sign m q).value? = some (N : ℚ) ∧ Double.FitsMantissa N
      ∧ (∀ j, Double.FitsMantissa j → |n - N| ≤ |n - j|)
      ∧ r.Enforces k N ∧ (r.Enforces k n ↔ Double.FitsMantissa n) := by
  obtain ⟨N, hvalue, hfits, hnear⟩ := Double.ofInt_nearest hn
  have henforces := enforces_of_value htype hdoubles hbound hvalue
  have hcanonical : (Double.finite sign m q).Canonical := hn ▸ Double.canonical_ofRatio one_pos _
  have hreadable : ∀ v, |v - N| ≤ 1 → Readable v := by
    intro v hv
    have hsmall := Double.natAbs_lt_of_value hcanonical hvalue
    refine readable_of_natAbs_le ?_
    generalize 2 ^ 1024 = bound at hsmall
    rw [abs_le] at hv
    omega
  refine ⟨N, hvalue, hfits, hnear, henforces, ?_⟩
  rw [Double.fitsMantissa_iff_eq hfits hnear]
  exact ⟨fun h => henforces.eq h hreadable, fun h => h ▸ henforces⟩

namespace Ontology

variable {source : String} {context : Option Json} {g : Graph} {o : Ontology}
  {notices : List Notice} {c : ClassModel} {p : PropertyModel} {datatype : Option String}

/-- An integer that a document gives as a bound of an integer property is enforced exactly if it
fits the mantissa of a double. Otherwise the nearest integer that fits is enforced in its place. -/
theorem integer_bound_enforced_iff [Platform]
    (hread : (ofGraph source context g).outcome = (.ok o, notices))
    (hc : c ∈ o.resolve.1) (hp : p ∈ c.properties) (htype : p.type = .literal .integer datatype) :
    ∃ e, (e = c ∨ Ancestor o.resolve.1 c e) ∧ ∃ d, o.firstDeclared? e.iri p.iri = some d
      ∧ ∃ shape node, Shape.Targets g shape e.iri ∧ Shape.Declares g shape node d
      ∧ ∀ (k : BoundKind) (l : Literal) (n : ℤ), Shape.field? g node k.name = some (.literal l) →
        l.value = .integer n → ∃ (b : Double) (N : ℤ), k.bound p.constraints = some (.double b)
          ∧ Numeral.double? (Bound.double b).source = some b ∧ b.value? = some (N : ℚ)
          ∧ Double.FitsMantissa N ∧ (∀ j, Double.FitsMantissa j → |n - N| ≤ |n - j|)
          ∧ p.rule.Enforces k N ∧ (p.rule.Enforces k n ↔ Double.FitsMantissa n)
          ∧ (n.natAbs ≤ 2 ^ 53 → p.rule.Enforces k n) := by
  obtain ⟨e, he, d, hd, hmodels⟩ := exists_declaration c hc p hp
  obtain ⟨shape, node, htargets, hdeclares⟩ :=
    exists_node_of_mem_declared hread (List.mem_of_find?_eq_some hd)
  have hconstraints := (Shape.propertyAt_ok hdeclares.reads).2
  rw [← hmodels.constraints] at hconstraints
  refine ⟨e, he, d, hd, shape, node, htargets, hdeclares, fun k l n hfield hl => ?_⟩
  obtain ⟨found, hfound, hbound⟩ := Shape.bound_of_constraintsOf hconstraints k
  obtain ⟨sign, m, q, hn, rfl⟩ := Shape.doubleField?_of_integer hfield hl hfound
  have hinteger : p.rule.valueType = .scalar .integer := by
    rw [PropertyModel.rule_valueType, htype]
    rfl
  obtain ⟨N, hvalue, hfits, hnear, henforces, hiff⟩ := Rule.enforces_of_ofInt hinteger
    (Shape.doubles_of_constraintsOf hconstraints) hbound hn
  have hcanonical : (Double.finite sign m q).Canonical := hn ▸ Double.canonical_ofRatio one_pos _
  exact ⟨_, N, hbound, Numeral.double?_text hcanonical, hvalue, hfits, hnear, henforces, hiff,
    fun h => hiff.2 (Double.fitsMantissa_of_le h)⟩

/-- A shape with one integer property, whose bound needs 54 bits. -/
def wideBoundGraph : Graph where
  triples :=
    [⟨.iri "ps", .iri Rdf.rdfType, .iri (Rdf.sh "NodeShape")⟩,
     ⟨.iri "ps", .iri (Rdf.sh "targetClass"), .iri "http://ex.org/P"⟩,
     ⟨.iri "ps", .iri (Rdf.sh "property"), .iri "n"⟩,
     ⟨.iri "n", .iri (Rdf.sh "path"), .iri "http://ex.org/n"⟩,
     ⟨.iri "n", .iri (Rdf.sh "datatype"), .iri (Rdf.xsd "integer")⟩,
     ⟨.iri "n", .iri (Rdf.sh "minInclusive"),
      .literal ⟨"9007199254740993", some (Rdf.xsd "integer"), none⟩⟩]

def wideBoundOntology : Ontology where
  shapes :=
    [⟨"ps", "http://ex.org/P",
      [{ path := "http://ex.org/n", name := "n", datatype := some (Rdf.xsd "integer")
         constraints :=
           { minInclusive := some (.double (.finite false (2 ^ 52) 1)) } }]⟩]
  context := {}
  classes := [⟨"http://ex.org/P", "P", []⟩]
  source := "shapes"

section

attribute [local instance] Platform.standard

/-- The bound is one too small in the rule, so the integer just below it is accepted. -/
theorem wide_bound_rounded :
    (ofGraph "shapes" none wideBoundGraph).outcome = (.ok wideBoundOntology, [])
      ∧ ∃ c ∈ wideBoundOntology.resolve.1, ∃ p ∈ c.properties,
        p.rule.Enforces .minInclusive 9007199254740992
          ∧ ¬ p.rule.Enforces .minInclusive 9007199254740993
          ∧ p.rule.firstViolation? "http://ex.org/a"
            (.literal ⟨"9007199254740992", some (Rdf.xsd "integer"), none⟩) = .ok none := by
  have hread : (ofGraph "shapes" none wideBoundGraph).outcome = (.ok wideBoundOntology, []) :=
    ofGraph_of_shapes (by decide +kernel) (by decide +kernel) rfl rfl
  have hfound : ∃ c ∈ wideBoundOntology.evaluate, ∃ p ∈ c.properties,
      p.type = .literal .integer (some (Rdf.xsd "integer"))
        ∧ p.constraints = { minInclusive := some (.double (.finite false (2 ^ 52) 1)) }
        ∧ p.rule.firstViolation? "http://ex.org/a"
          (.literal ⟨"9007199254740992", some (Rdf.xsd "integer"), none⟩) = .ok none := by
    decide +kernel
  rw [← resolve_eq_evaluate] at hfound
  obtain ⟨c, hc, p, hp, htype, hconstraints, haccepts⟩ := hfound
  obtain ⟨e, -, d, -, shape, node, htargets, hdeclares, hbounds⟩ :=
    integer_bound_enforced_iff hread hc hp htype
  obtain rfl : shape = .iri "ps" := by
    have hshapes : wideBoundGraph.subjects (.iri Rdf.rdfType) (.iri (Rdf.sh "NodeShape"))
        = [.iri "ps"] := by decide +kernel
    simpa [hshapes] using htargets.typed
  obtain rfl : node = .iri "n" := by
    have hnodes : wideBoundGraph.objects (.iri "ps") (.iri (Rdf.sh "property"))
        = [.iri "n"] := by decide +kernel
    simpa [hnodes] using hdeclares.property
  obtain ⟨b, N, hb, -, hN, -, -, henforces, hiff, -⟩ := hbounds .minInclusive
    ⟨"9007199254740993", some (Rdf.xsd "integer"), none⟩ 9007199254740993 (by decide +kernel)
    (by decide +kernel)
  obtain rfl : Double.finite false (2 ^ 52) 1 = b := by
    rw [hconstraints] at hb
    exact Bound.double.inj (Option.some.inj hb)
  obtain rfl : N = 9007199254740992 := by
    have h := Option.some.inj hN
    norm_num at h
    exact_mod_cast h.symm
  refine ⟨hread, c, hc, p, hp, henforces, fun h => ?_, haccepts⟩
  -- An odd number has no fewer bits than its mantissa.
  obtain ⟨m, j, hm, heq⟩ := hiff.1 h
  rcases j with _ | j
  · simp at heq
    omega
  · rw [pow_succ, ← mul_assoc] at heq
    simp at heq
    omega

end

end Ontology

end ShapeForge
