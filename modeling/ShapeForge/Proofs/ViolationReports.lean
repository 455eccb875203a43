import ShapeForge.Platform.Standard
import ShapeForge.Proofs.IntegerBounds
import ShapeForge.Proofs.LexicalForms

/-!
# What a rule reports

A rule checks the number of values, every value, and the required value. Each constraint that a rule
can find broken has its slots: one in all, or one for each value (`slots`). The violations that are
found are those of the broken slots, one for each and in their order; but a broken limit with more
digits than are written ends the check (`Rule.Checks`).

What breaks a slot (`Rule.Breaks`) is said without the checks: the texts of a type are those of its
grammar, and numbers are compared by their places on a line that ends in the two infinities.
-/

namespace ShapeForge

open Rdf (Graph Term Literal)

/-! ## Numbers on a line -/

/-- The place of a number among the rationals and the two infinities; not-a-number has none. -/
def Double.place? : Double → Option (WithBot (WithTop ℚ))
  | .infinite negative => some (if negative then ⊥ else ⊤)
  | d => d.value?.map fun x => ((x : WithTop ℚ) : WithBot (WithTop ℚ))

theorem strictMono_place : StrictMono fun x : ℚ => ((x : WithTop ℚ) : WithBot (WithTop ℚ)) :=
  fun _ _ h => WithBot.coe_lt_coe.2 (WithTop.coe_lt_coe.2 h)

theorem cmp_bot_place (x : ℚ) : cmp (⊥ : WithBot (WithTop ℚ)) (x : WithTop ℚ) = .lt :=
  (cmp_eq_lt_iff _ _).2 (WithBot.bot_lt_coe _)

theorem cmp_top_place (x : ℚ) : cmp (⊤ : WithBot (WithTop ℚ)) (x : WithTop ℚ) = .gt :=
  (cmp_eq_gt_iff _ _).2 (WithBot.coe_lt_coe.2 (WithTop.coe_lt_top x))

theorem cmp_place_bot (x : ℚ) : cmp ((x : WithTop ℚ) : WithBot (WithTop ℚ)) ⊥ = .gt :=
  (cmp_eq_gt_iff _ _).2 (WithBot.bot_lt_coe _)

theorem cmp_place_top (x : ℚ) : cmp ((x : WithTop ℚ) : WithBot (WithTop ℚ)) ⊤ = .lt :=
  (cmp_eq_lt_iff _ _).2 (WithBot.coe_lt_coe.2 (WithTop.coe_lt_top x))

namespace Double

theorem compare?_finite (a b : Bool) (m n : ℕ) (p q : ℤ) :
    compare (scaled a m p (min p q)) (scaled b n q (min p q))
      = cmp ((if a then -1 else 1 : ℚ) * (m * 2 ^ p)) ((if b then -1 else 1) * (n * 2 ^ q)) := by
  have hmono : StrictMono fun z : ℤ => (z : ℚ) * 2 ^ min p q := fun x y hxy =>
    mul_lt_mul_of_pos_right (by exact_mod_cast hxy) (by positivity)
  have hcmp := hmono.cmp_map_eq (scaled a m p (min p q)) (scaled b n q (min p q))
  simp only [scaled_eq (min_le_left p q), scaled_eq (min_le_right p q)] at hcmp
  rw [hcmp, cmp_eq_compare]

/-- Doubles are compared by their places. -/
theorem compare?_eq (d e : Double) :
    d.compare? e = d.place?.bind fun x => e.place?.map (cmp x) := by
  rcases d with ⟨a, m, p⟩ | a | _ <;> rcases e with ⟨b, n, q⟩ | b | _
  · rw [compare?, compare?_finite, ← strictMono_place.cmp_map_eq]
    rfl
  · cases b
    · exact congrArg some (cmp_place_top _).symm
    · exact congrArg some (cmp_place_bot _).symm
  · rfl
  · cases a
    · exact congrArg some (cmp_top_place _).symm
    · exact congrArg some (cmp_bot_place _).symm
  · cases a <;> cases b <;> decide
  all_goals rfl

theorem compareInt?_eq_place (d : Double) (i : ℤ) :
    d.compareInt? i
      = d.place?.map (cmp (((i : ℚ) : WithTop ℚ) : WithBot (WithTop ℚ))) := by
  rcases d with ⟨b, n, q⟩ | b | _
  · rw [compareInt?_eq rfl, ← strictMono_place.cmp_map_eq]
    rfl
  · cases b
    · exact congrArg some (cmp_place_top _).symm
    · exact congrArg some (cmp_place_bot _).symm
  · rfl

end Double

namespace Bound

/-- The place of a number. -/
def place? : Bound → Option (WithBot (WithTop ℚ))
  | .int i => some (((i : ℚ) : WithTop ℚ) : WithBot (WithTop ℚ))
  | .double d => d.place?

/-- Numbers are compared by their places. -/
theorem compare?_eq (a b : Bound) :
    a.compare? b = a.place?.bind fun x => b.place?.map (cmp x) := by
  rcases a with i | d <;> rcases b with j | e
  · have hcast : compare i j = cmp (((i : ℚ) : WithTop ℚ) : WithBot (WithTop ℚ))
        (((j : ℚ) : WithTop ℚ) : WithBot (WithTop ℚ)) := by
      rw [strictMono_place.cmp_map_eq (i : ℚ) (j : ℚ), Int.cast_strictMono.cmp_map_eq,
        cmp_eq_compare]
    rw [compare?, hcast]
    rfl
  · exact Double.compareInt?_eq_place e i
  · rw [compare?, Double.compareInt?_eq_place, Option.map_map]
    rcases hd : d.place? with _ | x
    · simp [place?, hd]
    · simp [place?, hd, cmp_swap]
  · exact Double.compare?_eq d e

theorem le_iff (a b : Bound) :
    a.le b = true ↔ ∃ x y, a.place? = some x ∧ b.place? = some y ∧ x ≤ y := by
  rw [le, compare?_eq]
  rcases a.place? with _ | x
  · simp
  · rcases b.place? with _ | y
    · simp
    · simp [cmp_eq_lt_iff, cmp_eq_eq_iff, le_iff_lt_or_eq]

theorem lt_iff (a b : Bound) :
    a.lt b = true ↔ ∃ x y, a.place? = some x ∧ b.place? = some y ∧ x < y := by
  rw [lt, compare?_eq]
  rcases a.place? with _ | x
  · simp
  · rcases b.place? with _ | y
    · simp
    · simp [cmp_eq_lt_iff]

end Bound

/-! ## Constraints and their slots -/

namespace BoundKind

/-- The four kinds, in the order in which they are checked. -/
def all : List BoundKind := [.minInclusive, .maxInclusive, .minExclusive, .maxExclusive]

/-- The place is on the right side of a bound. -/
def Allows (x bound : WithBot (WithTop ℚ)) : BoundKind → Prop
  | minInclusive => bound ≤ x
  | maxInclusive => x ≤ bound
  | minExclusive => bound < x
  | maxExclusive => x < bound

/-- The number keeps a bound of this kind. Not-a-number keeps no bound, and none keeps it. -/
def Keeps (k : BoundKind) (number bound : Bound) : Prop :=
  ∃ x y, number.place? = some x ∧ bound.place? = some y ∧ k.Allows x y

end BoundKind

/-- The constraints that can be found broken. -/
inductive Component where
  | minCount
  | maxCount
  | minLength
  | maxLength
  | pattern
  | listed
  | datatype
  | bound (kind : BoundKind)
  | hasValue

namespace Component

/-- The constraint component in a violation. -/
def name : Component → String
  | minCount => "minCount"
  | maxCount => "maxCount"
  | minLength => "minLength"
  | maxLength => "maxLength"
  | pattern => "pattern"
  | listed => "in"
  | datatype => "datatype"
  | bound kind => kind.name
  | hasValue => "hasValue"

/-- The constraints on single values, in the order in which they are checked. -/
def ofValue : List Component :=
  [minLength, maxLength, pattern, listed, datatype] ++ BoundKind.all.map bound

/-- The limit that a violation of the constraint shows. -/
def limit? (c : Constraints) : Component → Option ℤ
  | minCount => some c.minCount
  | maxCount => c.maxCount
  | minLength => c.minLength
  | maxLength => c.maxLength
  | _ => none

end Component

/-- A constraint and the value that it concerns, if it concerns single values. -/
structure Slot where
  component : Component
  value : Option Term := none

/-- All that is checked for values: their number, each of them, and the required value. -/
def slots (values : List Term) : List Slot :=
  [⟨.minCount, none⟩, ⟨.maxCount, none⟩]
    ++ values.flatMap (fun t => Component.ofValue.map fun k => ⟨k, some t⟩)
    ++ [⟨.hasValue, none⟩]

/-- A violation without its wording. -/
def Violation.unworded (v : Violation) : Violation := { v with message := "" }

/-- The pattern is a regular expression that matches the whole text. -/
def Constraints.Matches [Platform] (c : Constraints) (expression text : String) : Prop :=
  ∃ accepts, Platform.compile (.ofText (c.flags.getD "")) expression = .ok accepts
    ∧ accepts text = true

namespace Rule

/-- What breaks a constraint, where values are those of the predicate. -/
inductive Breaks [Platform] (r : Rule) (values : List Term) : Slot → Prop
  | minCount : values.length < r.constraints.minCount → Breaks r values ⟨.minCount, none⟩
  | maxCount {most : ℤ} : r.constraints.maxCount = some most → most < values.length →
    Breaks r values ⟨.maxCount, none⟩
  | minLength {least : ℤ} {l : Literal} : r.constraints.minLength = some least →
    l.lexical.length < least → Breaks r values ⟨.minLength, some (.literal l)⟩
  | maxLength {most : ℤ} {l : Literal} : r.constraints.maxLength = some most →
    most < l.lexical.length → Breaks r values ⟨.maxLength, some (.literal l)⟩
  | pattern {expression : String} {l : Literal} : r.constraints.pattern = some expression →
    ¬ r.constraints.Matches expression l.lexical → Breaks r values ⟨.pattern, some (.literal l)⟩
  | listed {texts : List String} {t : Term} : r.constraints.inValues = some texts →
    t.text ∉ texts → Breaks r values ⟨.listed, some t⟩
  | datatype {type : ScalarType} {l : Literal} : r.valueType = .scalar type →
    (¬ ∃ v, type.Denotes l.lexical v ∧ type.Fits l.lexical) →
    Breaks r values ⟨.datatype, some (.literal l)⟩
  | bound {type : ScalarType} {l : Literal} {v : ScalarValue} {kind : BoundKind}
    {number bound : Bound} : r.valueType = .scalar type → type.Denotes l.lexical v →
    type.Fits l.lexical → v.number? = some number → kind.bound r.constraints = some bound →
    ¬ kind.Keeps number bound → Breaks r values ⟨.bound kind, some (.literal l)⟩
  | hasValue {required : String} : r.constraints.hasValue = some required →
    (∀ t ∈ values, t.text ≠ required) → Breaks r values ⟨.hasValue, none⟩

/-- What the values of the predicate must be like. -/
structure Conforms [Platform] (r : Rule) (values : List Term) : Prop where
  minCount : r.constraints.minCount ≤ values.length
  maxCount : ∀ most, r.constraints.maxCount = some most → values.length ≤ most
  minLength : ∀ l, .literal l ∈ values → ∀ least, r.constraints.minLength = some least →
    least ≤ l.lexical.length
  maxLength : ∀ l, .literal l ∈ values → ∀ most, r.constraints.maxLength = some most →
    l.lexical.length ≤ most
  pattern : ∀ l, .literal l ∈ values → ∀ expression, r.constraints.pattern = some expression →
    r.constraints.Matches expression l.lexical
  listed : ∀ t ∈ values, ∀ texts, r.constraints.inValues = some texts → t.text ∈ texts
  datatype : ∀ l, .literal l ∈ values → ∀ type, r.valueType = .scalar type →
    ∃ v, type.Denotes l.lexical v
  bounds : ∀ l, .literal l ∈ values → ∀ type, r.valueType = .scalar type →
    ∀ v number, type.Denotes l.lexical v → v.number? = some number →
      ∀ kind bound, BoundKind.bound r.constraints kind = some bound → kind.Keeps number bound
  hasValue : ∀ required, r.constraints.hasValue = some required → ∃ t ∈ values, t.text = required

/-- The values of an integer rule have no more digits than are read. -/
def Fits (r : Rule) (values : List Term) : Prop :=
  ∀ l, .literal l ∈ values → ∀ type, r.valueType = .scalar type → type.Fits l.lexical

variable {r : Rule} {values : List Term} {focus : String}

theorem value_mem_slots {k : Component} {t : Term} :
    ⟨k, some t⟩ ∈ slots values ↔ t ∈ values ∧ k ∈ Component.ofValue := by
  simp only [slots, List.mem_append, List.mem_cons, List.mem_flatMap, List.mem_map, Slot.mk.injEq,
    Option.some.injEq, reduceCtorEq, and_false, List.not_mem_nil, or_false, false_or]
  constructor
  · rintro ⟨u, hu, k', hk, rfl, rfl⟩
    exact ⟨hu, hk⟩
  · rintro ⟨ht, hk⟩
    exact ⟨t, ht, k, hk, rfl, rfl⟩

theorem bound_mem_ofValue (kind : BoundKind) : .bound kind ∈ Component.ofValue := by
  cases kind <;> simp [Component.ofValue, BoundKind.all]

/-- Values conform, without too many digits, exactly if no slot of theirs is broken. -/
theorem conforms_iff [Platform] :
    r.Conforms values ∧ r.Fits values ↔ ∀ s ∈ slots values, ¬ r.Breaks values s := by
  constructor
  · rintro ⟨h, hfits⟩ s hs hbroken
    cases hbroken with
    | minCount hlt => exact absurd h.minCount (not_le.2 hlt)
    | maxCount hmost hlt => exact absurd (h.maxCount _ hmost) (not_le.2 hlt)
    | minLength hleast hlt =>
      exact absurd (h.minLength _ (value_mem_slots.1 hs).1 _ hleast) (not_le.2 hlt)
    | maxLength hmost hlt =>
      exact absurd (h.maxLength _ (value_mem_slots.1 hs).1 _ hmost) (not_le.2 hlt)
    | pattern hpattern hfails => exact hfails (h.pattern _ (value_mem_slots.1 hs).1 _ hpattern)
    | listed htexts hfails => exact hfails (h.listed _ (value_mem_slots.1 hs).1 _ htexts)
    | datatype htype hfails =>
      have hmem := (value_mem_slots.1 hs).1
      obtain ⟨v, hv⟩ := h.datatype _ hmem _ htype
      exact hfails ⟨v, hv, hfits _ hmem _ htype⟩
    | bound htype hv _ hnumber hbound hfails =>
      exact hfails (h.bounds _ (value_mem_slots.1 hs).1 _ htype _ _ hv hnumber _ _ hbound)
    | hasValue hrequired hfails =>
      obtain ⟨t, ht, heq⟩ := h.hasValue _ hrequired
      exact hfails t ht heq
  · intro h
    have hvalue : ∀ {k : Component} {t : Term}, t ∈ values → k ∈ Component.ofValue →
        ¬ r.Breaks values ⟨k, some t⟩ := fun ht hk => h _ (value_mem_slots.2 ⟨ht, hk⟩)
    have htyped : ∀ l, .literal l ∈ values → ∀ type, r.valueType = .scalar type →
        ∃ v, type.Denotes l.lexical v ∧ type.Fits l.lexical := fun l hl type htype =>
      by_contra fun hfails => hvalue hl (by simp [Component.ofValue]) (.datatype htype hfails)
    refine ⟨?_, fun l hl type htype => (htyped l hl type htype).choose_spec.2⟩
    constructor
    · exact not_lt.1 fun hlt => h _ (by simp [slots]) (.minCount hlt)
    · exact fun most hmost => not_lt.1 fun hlt => h _ (by simp [slots]) (.maxCount hmost hlt)
    · exact fun l hl least hleast => not_lt.1 fun hlt =>
        hvalue hl (by simp [Component.ofValue]) (.minLength hleast hlt)
    · exact fun l hl most hmost => not_lt.1 fun hlt =>
        hvalue hl (by simp [Component.ofValue]) (.maxLength hmost hlt)
    · exact fun l hl expression he => by_contra fun hfails =>
        hvalue hl (by simp [Component.ofValue]) (.pattern he hfails)
    · exact fun t ht texts htexts => by_contra fun hfails =>
        hvalue ht (by simp [Component.ofValue]) (.listed htexts hfails)
    · exact fun l hl type htype => (htyped l hl type htype).imp fun _ hv => hv.1
    · exact fun l hl type htype v number hv hnumber kind bound hbound => by_contra fun hfails =>
        hvalue hl (bound_mem_ofValue kind)
          (.bound htype hv (htyped l hl type htype).choose_spec.2 hnumber hbound hfails)
    · intro required hrequired
      by_contra hfails
      refine h _ (by simp [slots]) (.hasValue hrequired fun t ht heq => hfails ⟨t, ht, heq⟩)

/-! ## What is found -/

/-- The limit of a constraint, if it has one, can be shown in a message. -/
def Shows (r : Rule) (k : Component) : Prop :=
  ∀ limit, k.limit? r.constraints = some limit → Numeral.isWritable limit = true

variable (r values focus) in
open scoped Classical in
/-- The violation of a slot, if the slot is broken. -/
noncomputable def reported [Platform] (s : Slot) : List Violation :=
  if r.Breaks values s then [r.violation focus s.component.name "" (s.value.map Term.text)] else []

/-- What comes of checking slots: the violations of the broken ones in their order, or a failure
because the limit of one of them cannot be shown. -/
inductive Checks [Platform] (r : Rule) (values : List Term) (focus : String) (l : List Slot) :
    Except CheckError (List Violation) → Prop
  | found {found : List Violation} : (∀ s ∈ l, r.Breaks values s → r.Shows s.component) →
    found.map Violation.unworded = l.flatMap (r.reported values focus) →
    Checks r values focus l (.ok found)
  | hidden {s : Slot} : s ∈ l → r.Breaks values s → ¬ r.Shows s.component →
    Checks r values focus l (.error .longInteger)

theorem shows_of_limit?_eq_none {k : Component} (h : k.limit? r.constraints = none) : r.Shows k :=
  fun limit hlimit => by simp [h] at hlimit

theorem reported_eq_nil [Platform] {s : Slot} (h : ¬ r.Breaks values s) :
    r.reported values focus s = [] :=
  if_neg h

namespace Checks

variable [Platform] {l l' : List Slot} {x y : Except CheckError (List Violation)} {s : Slot}

theorem nil : Checks r values focus [] (.ok []) := .found (by simp) rfl

theorem append (hx : Checks r values focus l x) (hy : Checks r values focus l' y) :
    Checks r values focus (l ++ l') (do let a ← x; let b ← y; return a ++ b) := by
  cases hx with
  | hidden hs hbroken hhides => exact .hidden (List.mem_append_left _ hs) hbroken hhides
  | found hshows hfound =>
    cases hy with
    | hidden hs hbroken hhides => exact .hidden (List.mem_append_right _ hs) hbroken hhides
    | found hshows' hfound' =>
      refine .found (List.forall_mem_append.2 ⟨hshows, hshows'⟩) ?_
      rw [List.map_append, List.flatMap_append, hfound, hfound']

theorem cons (hx : Checks r values focus [s] x) (hy : Checks r values focus l y) :
    Checks r values focus (s :: l) (do let a ← x; let b ← y; return a ++ b) :=
  hx.append hy

/-- Each thing is checked, whatever the checks of others find. -/
theorem flatMap {α : Type} {slotsOf : α → List Slot}
    {check : α → Except CheckError (List Violation)} :
    ∀ {as : List α}, (∀ a ∈ as, Checks r values focus (slotsOf a) (check a)) →
      Checks r values focus (as.flatMap slotsOf) ((as.mapM check).map List.flatten)
  | [], _ => nil
  | a :: as, h => by
    rw [List.forall_mem_cons] at h
    rw [List.flatMap_cons, mapM_flatten_cons]
    exact h.1.append (flatMap h.2)

/-- A slot that is not broken. -/
theorem kept (h : ¬ r.Breaks values s) : Checks r values focus [s] (.ok []) := by
  refine .found (by simp [h]) ?_
  simp [reported_eq_nil h]

/-- A slot that is broken, of a constraint whose limit can be shown. -/
theorem broken (h : r.Breaks values s) (hshows : r.Shows s.component) (message : String) :
    Checks r values focus [s]
      (.ok [r.violation focus s.component.name message (s.value.map Term.text)]) := by
  refine .found (List.forall_mem_singleton.2 fun _ => hshows) ?_
  rw [List.flatMap_cons, List.flatMap_nil, List.append_nil, reported, if_pos h]
  rfl

theorem ite {p : Prop} [Decidable p] (h : r.Breaks values s ↔ p) (hshows : r.Shows s.component)
    (message : String) :
    Checks r values focus [s] (.ok <| if p
      then [r.violation focus s.component.name message (s.value.map Term.text)] else []) := by
  split_ifs with hp
  · exact broken (h.2 hp) hshows message
  · exact kept (mt h.1 hp)

/-- A slot with a limit. -/
theorem limit {isBroken : ℤ → Bool}
    (h : r.Breaks values s ↔
      ∃ limit, s.component.limit? r.constraints = some limit ∧ isBroken limit = true)
    (message : ℤ → String) :
    Checks r values focus [s] (r.limitViolation focus s.component.name
      (s.component.limit? r.constraints) isBroken message (s.value.map Term.text)) := by
  unfold limitViolation
  rcases hlimit : s.component.limit? r.constraints with _ | limit
  · refine kept fun hbroken => ?_
    obtain ⟨limit, hsome, -⟩ := h.1 hbroken
    simp [hlimit] at hsome
  · have hiff : r.Breaks values s ↔ isBroken limit = true := by simp [h, hlimit]
    have hshows : r.Shows s.component ↔ Numeral.isWritable limit = true := by simp [Shows, hlimit]
    dsimp only
    split_ifs with hkept hwritable
    · exact kept fun hbroken => by simp [hiff.1 hbroken] at hkept
    · exact broken (hiff.2 (by simpa using hkept)) (hshows.2 hwritable) (message limit)
    · exact .hidden (List.mem_singleton_self s) (hiff.2 (by simpa using hkept))
        fun h => hwritable (hshows.1 h)

end Checks

variable (values focus)

theorem checks_count [Platform] :
    Checks r values focus [⟨.minCount, none⟩, ⟨.maxCount, none⟩]
      (r.countViolations focus values.length) := by
  refine Checks.cons (.limit ⟨fun h => ?_, ?_⟩ _) (.limit ⟨fun h => ?_, ?_⟩ _)
  · cases h with
    | minCount hlt => exact ⟨_, rfl, decide_eq_true hlt⟩
  · rintro ⟨_, ⟨⟩, h⟩
    exact .minCount (of_decide_eq_true h)
  · cases h with
    | maxCount hmost hlt => exact ⟨_, hmost, decide_eq_true hlt⟩
  · rintro ⟨most, hmost, h⟩
    exact .maxCount hmost (of_decide_eq_true h)

theorem checks_hasValue [Platform] :
    Checks r values focus [⟨.hasValue, none⟩] (.ok (r.hasValueViolations focus values)) := by
  unfold hasValueViolations
  rcases hrequired : r.constraints.hasValue with _ | required
  · exact .kept fun h => by cases h; simp_all
  · dsimp only
    rw [← ite_not]
    refine .ite ⟨fun h => ?_, fun h => .hasValue hrequired ?_⟩ (shows_of_limit?_eq_none rfl) _
    · cases h
      simp_all
    · simpa using h

theorem checks_member [Platform] (t : Term) :
    Checks r values focus [⟨.listed, some t⟩] (.ok (r.memberViolations focus t.text)) := by
  unfold memberViolations
  rcases htexts : r.constraints.inValues with _ | texts
  · exact .kept fun h => by cases h; simp_all
  · dsimp only
    rw [← ite_not]
    refine .ite ⟨fun h => ?_, fun h => .listed htexts (by simpa using h)⟩
      (shows_of_limit?_eq_none rfl) _
    cases h
    simp_all

theorem checks_length [Platform] (l : Literal) :
    Checks r values focus [⟨.minLength, some (.literal l)⟩, ⟨.maxLength, some (.literal l)⟩]
      (r.lengthViolations focus l.lexical) := by
  refine Checks.cons (.limit ⟨fun h => ?_, ?_⟩ _) (.limit ⟨fun h => ?_, ?_⟩ _)
  · cases h with
    | minLength hleast hlt => exact ⟨_, hleast, decide_eq_true hlt⟩
  · rintro ⟨least, hleast, h⟩
    exact .minLength hleast (of_decide_eq_true h)
  · cases h with
    | maxLength hmost hlt => exact ⟨_, hmost, decide_eq_true hlt⟩
  · rintro ⟨most, hmost, h⟩
    exact .maxLength hmost (of_decide_eq_true h)

/-- The pattern of a rule, if it has one, is a regular expression. -/
def PatternReads [Platform] (r : Rule) : Prop :=
  ∀ expression, r.constraints.pattern = some expression →
    ∃ accepts, Platform.compile (.ofText (r.constraints.flags.getD "")) expression = .ok accepts

/-- The bounds of a rule are doubles. -/
def DoubleBounds (r : Rule) : Prop :=
  ∀ kind bound, BoundKind.bound r.constraints kind = some bound → ∃ d, bound = .double d

theorem checks_pattern [Platform] (h : r.PatternReads) (l : Literal) :
    Checks r values focus [⟨.pattern, some (.literal l)⟩]
      (r.patternViolations focus l.lexical) := by
  unfold patternViolations
  rcases hpattern : r.constraints.pattern with _ | expression
  · exact .kept fun h => by cases h; simp_all
  · obtain ⟨accepts, hread⟩ := h expression hpattern
    have hmatches : r.constraints.Matches expression l.lexical ↔ accepts l.lexical = true := by
      simp [Constraints.Matches, hread]
    have hbreaks : r.Breaks values ⟨.pattern, some (.literal l)⟩
        ↔ ¬ accepts l.lexical = true := by
      rw [← hmatches]
      refine ⟨fun h => ?_, .pattern hpattern⟩
      cases h with
      | pattern hpattern' hfails =>
        obtain rfl := Option.some.inj (hpattern.symm.trans hpattern')
        exact hfails
    simp only [hread]
    split_ifs with hmatch
    · exact .kept fun h => hbreaks.1 h hmatch
    · exact .broken (hbreaks.2 hmatch) (shows_of_limit?_eq_none rfl) _

/-- The check of a kind of bounds. -/
def checkOf (c : Constraints) : BoundKind → BoundCheck
  | .minInclusive => ⟨"minInclusive", ">=", c.minInclusive, fun v b => b.le v⟩
  | .maxInclusive => ⟨"maxInclusive", "<=", c.maxInclusive, fun v b => v.le b⟩
  | .minExclusive => ⟨"minExclusive", ">", c.minExclusive, fun v b => b.lt v⟩
  | .maxExclusive => ⟨"maxExclusive", "<", c.maxExclusive, fun v b => v.lt b⟩

theorem boundChecks_eq (c : Constraints) : boundChecks c = BoundKind.all.map (checkOf c) := rfl

theorem checkOf_bound (c : Constraints) (kind : BoundKind) :
    (checkOf c kind).bound = kind.bound c := by
  cases kind <;> rfl

theorem checkOf_constraint (c : Constraints) (kind : BoundKind) :
    (checkOf c kind).constraint = kind.name := by
  cases kind <;> rfl

theorem checkOf_passes (c : Constraints) (kind : BoundKind) (number bound : Bound) :
    (checkOf c kind).passes number bound = true ↔ kind.Keeps number bound := by
  have hswap : ∀ {P : WithBot (WithTop ℚ) → WithBot (WithTop ℚ) → Prop},
      (∃ x y, bound.place? = some x ∧ number.place? = some y ∧ P x y) ↔
        ∃ x y, number.place? = some x ∧ bound.place? = some y ∧ P y x := by
    intro P
    constructor <;> rintro ⟨x, y, hx, hy, h⟩ <;> exact ⟨y, x, hy, hx, h⟩
  cases kind
  · exact (Bound.le_iff bound number).trans hswap
  · exact Bound.le_iff number bound
  · exact (Bound.lt_iff bound number).trans hswap
  · exact Bound.lt_iff number bound

theorem checks_bound [Platform] (hbounds : r.DoubleBounds) {type : ScalarType} {l : Literal}
    {v : ScalarValue} {number : Bound} (htype : r.valueType = .scalar type)
    (hread : type.read l.lexical = .ok v) (hnumber : v.number? = some number) (kind : BoundKind) :
    Checks r values focus [⟨.bound kind, some (.literal l)⟩]
      (r.boundViolation focus l.lexical number (checkOf r.constraints kind)) := by
  -- The text is read as one value, so this is the number that has to keep the bound.
  have hbreaks : r.Breaks values ⟨.bound kind, some (.literal l)⟩ ↔
      ∃ bound, kind.bound r.constraints = some bound ∧ ¬ kind.Keeps number bound := by
    constructor
    · intro h
      cases h with
      | bound htype' hv hfits hnumber' hbound hfails =>
        obtain rfl : type = _ := ValueType.scalar.inj (htype.symm.trans htype')
        obtain rfl := Except.ok.inj (hread.symm.trans (ScalarType.read_ok_iff.2 ⟨hv, hfits⟩))
        obtain rfl := Option.some.inj (hnumber.symm.trans hnumber')
        exact ⟨_, hbound, hfails⟩
    · rintro ⟨bound, hbound, hfails⟩
      obtain ⟨hv, hfits⟩ := ScalarType.read_ok_iff.1 hread
      exact .bound htype hv hfits hnumber hbound hfails
  unfold boundViolation
  rw [checkOf_bound]
  rcases hbound : kind.bound r.constraints with _ | bound
  · refine .kept fun h => ?_
    obtain ⟨_, hsome, -⟩ := hbreaks.1 h
    simp [hbound] at hsome
  · dsimp only
    split_ifs with hpasses
    · refine .kept fun h => ?_
      obtain ⟨_, hsome, hfails⟩ := hbreaks.1 h
      obtain rfl := Option.some.inj (hbound.symm.trans hsome)
      exact hfails ((checkOf_passes _ _ _ _).1 hpasses)
    · obtain ⟨d, rfl⟩ := hbounds kind bound hbound
      have hbroken := hbreaks.2 ⟨_, hbound, mt (checkOf_passes _ _ _ _).2 hpasses⟩
      rw [checkOf_constraint]
      exact .broken hbroken (shows_of_limit?_eq_none rfl) _

/-- The slots of the bounds that a literal has to keep. -/
def boundSlots (l : Literal) : List Slot :=
  BoundKind.all.map fun kind => ⟨.bound kind, some (.literal l)⟩

theorem checks_bounds [Platform] (hbounds : r.DoubleBounds) {type : ScalarType} {l : Literal}
    {v : ScalarValue} {number : Bound} (htype : r.valueType = .scalar type)
    (hread : type.read l.lexical = .ok v) (hnumber : v.number? = some number) :
    Checks r values focus (boundSlots l)
      (((boundChecks r.constraints).mapM (r.boundViolation focus l.lexical number)).map
        List.flatten) := by
  rw [boundChecks_eq, List.mapM_map, boundSlots, List.map_eq_flatMap]
  exact .flatMap fun kind _ => checks_bound values focus hbounds htype hread hnumber kind

/-- Slots of which none is broken. -/
theorem checks_kept [Platform] {l : List Slot} (h : ∀ s ∈ l, ¬ r.Breaks values s) :
    Checks r values focus l (.ok []) := by
  refine .found (fun s hs hbroken => absurd hbroken (h s hs)) ?_
  rw [List.map_nil, eq_comm, List.flatMap_eq_nil_iff]
  exact fun s hs => reported_eq_nil (h s hs)

theorem not_breaks_datatype [Platform] {l : Literal}
    (h : ∀ type, r.valueType = .scalar type → ∃ v, type.read l.lexical = .ok v) :
    ¬ r.Breaks values ⟨.datatype, some (.literal l)⟩ := by
  intro hbroken
  cases hbroken with
  | datatype htype hfails =>
    obtain ⟨v, hv⟩ := h _ htype
    exact hfails ⟨v, ScalarType.read_ok_iff.1 hv⟩

/-- Only a text that is read as a number can break a bound. -/
theorem not_breaks_bounds [Platform] {l : Literal}
    (h : ∀ type v, r.valueType = .scalar type → type.read l.lexical = .ok v → v.number? = none) :
    ∀ s ∈ boundSlots l, ¬ r.Breaks values s := by
  intro s hs hbroken
  obtain ⟨kind, -, rfl⟩ := List.mem_map.1 hs
  cases hbroken with
  | bound htype hv hfits hnumber =>
    have hnone := h _ _ htype (ScalarType.read_ok_iff.2 ⟨hv, hfits⟩)
    simp [hnumber] at hnone

theorem checks_type [Platform] (hbounds : r.DoubleBounds) (l : Literal) :
    Checks r values focus (⟨.datatype, some (.literal l)⟩ :: boundSlots l)
      (r.typeViolations focus l.lexical) := by
  have hkept (htyped : ∀ type, r.valueType = .scalar type → ∃ v, type.read l.lexical = .ok v)
      (hnumber : ∀ type v, r.valueType = .scalar type → type.read l.lexical = .ok v →
        v.number? = none) :
      Checks r values focus (⟨.datatype, some (.literal l)⟩ :: boundSlots l) (.ok []) :=
    checks_kept values focus (List.forall_mem_cons.2
      ⟨not_breaks_datatype values htyped, not_breaks_bounds values hnumber⟩)
  unfold typeViolations
  split
  · rename_i name htype
    exact hkept (fun type h => by simp [htype] at h) fun type v h => by simp [htype] at h
  · rename_i htype
    have htext : ∀ type, r.valueType = .scalar type → type = .text := fun type h =>
      ValueType.scalar.inj (h.symm.trans htype)
    refine hkept (fun type h => htext type h ▸ ⟨_, rfl⟩) fun type v h hv => ?_
    obtain rfl := htext type h
    obtain rfl := Except.ok.inj hv
    rfl
  · rename_i type _ htype
    have hsame : ∀ type', r.valueType = .scalar type' → type' = type := fun type' h =>
      ValueType.scalar.inj (h.symm.trans htype)
    rcases hread : type.read l.lexical with e | v
    · -- A text that is refused breaks the type, and then no bound.
      have hrefused : r.Breaks values ⟨.datatype, some (.literal l)⟩ :=
        .datatype htype fun ⟨v, hv⟩ => by simp [ScalarType.read_ok_iff.2 hv] at hread
      have hbounds : Checks r values focus (boundSlots l) (.ok []) := by
        refine checks_kept values focus (not_breaks_bounds values fun type' v h hv => ?_)
        obtain rfl := hsame type' h
        simp [hread] at hv
      exact (Checks.broken hrefused (shows_of_limit?_eq_none rfl) _).append hbounds
    · have htyped : Checks r values focus [⟨.datatype, some (.literal l)⟩] (.ok []) :=
        .kept (not_breaks_datatype values fun type' h => hsame type' h ▸ ⟨v, hread⟩)
      rcases hnumber : v.number? with _ | number
      · simp only [hnumber]
        refine hkept (fun type' h => hsame type' h ▸ ⟨v, hread⟩) fun type' w h hw => ?_
        obtain rfl := hsame type' h
        obtain rfl := Except.ok.inj (hread.symm.trans hw)
        exact hnumber
      · have happend := htyped.append (checks_bounds values focus hbounds htype hread hnumber)
        simp only [hnumber]
        generalize (boundChecks r.constraints).mapM (r.boundViolation focus l.lexical number)
          = outcome at happend ⊢
        rcases outcome with e | found <;> exact happend

/-- A value is checked against each constraint on single values, whatever it fails. -/
theorem checks_value [Platform] (hpattern : r.PatternReads) (hbounds : r.DoubleBounds) (t : Term) :
    Checks r values focus (Component.ofValue.map fun k => ⟨k, some t⟩)
      (r.valueViolations focus t) := by
  rw [valueViolations]
  by_cases hliteral : t.isLiteral = true
  · obtain ⟨l, rfl⟩ : ∃ l, t = .literal l := by
      cases t <;> simp_all [Term.isLiteral]
    have hparts := (((checks_length values focus l).append
      (checks_pattern values focus hpattern l)).append (checks_member (r := r) values focus
        (.literal l))).append (checks_type values focus hbounds l)
    have hok : ∀ found : List Violation, (Except.ok found : Except CheckError _) = pure found :=
      fun _ => rfl
    simp only [Term.isLiteral, Term.text, if_true, hok, bind_assoc, pure_bind] at hparts ⊢
    exact hparts
  · -- Only the list of values concerns a term that is no literal.
    have hother : ∀ k, k ≠ .listed → ¬ r.Breaks values ⟨k, some t⟩ := by
      intro k hk hbroken
      cases hbroken with
      | listed => exact hk rfl
      | _ => exact hliteral rfl
    have hkept (ks : List Component) (hks : Component.listed ∉ ks) :
        Checks r values focus (ks.map fun k => ⟨k, some t⟩) (.ok []) :=
      checks_kept values focus (List.forall_mem_map.2 fun k hk =>
        hother k fun h => hks (h ▸ hk))
    have hparts := ((hkept [.minLength, .maxLength, .pattern] (by simp)).append
      (checks_member (r := r) values focus t)).append
      (hkept (.datatype :: BoundKind.all.map .bound) (by simp))
    rw [if_neg hliteral]
    simpa [Component.ofValue, bind, Except.bind, pure, Except.pure] using hparts

/-- A rule checks all its slots. -/
theorem checks_violations [Platform] (hpattern : r.PatternReads) (hbounds : r.DoubleBounds)
    (g : Graph) (node : Term) :
    Checks r (g.objects node r.predicate) node.text (slots (g.objects node r.predicate))
      (r.violations g node) := by
  generalize hvalues : g.objects node r.predicate = values
  have hparts := ((checks_count (r := r) values node.text).append
    (Checks.flatMap fun t (_ : t ∈ values) =>
      checks_value values node.text hpattern hbounds t)).append
    (checks_hasValue (r := r) values node.text)
  rw [violations, hvalues]
  generalize r.countViolations node.text values.length = counts at hparts ⊢
  generalize values.mapM (r.valueViolations node.text) = each at hparts ⊢
  rcases counts with e | counts
  · exact hparts
  · rcases each with e | each <;> exact hparts

open scoped Classical in
theorem flatMap_reported [Platform] (l : List Slot) : l.flatMap (r.reported values focus)
    = (l.filter fun s => r.Breaks values s).map
      fun s => r.violation focus s.component.name "" (s.value.map Term.text) := by
  induction l with
  | nil => rfl
  | cons s l ih =>
    rw [List.flatMap_cons, ih, reported]
    by_cases h : r.Breaks values s <;> simp [h]

theorem violations_eq_nil_iff_conforms [Platform] (hpattern : r.PatternReads)
    (hbounds : r.DoubleBounds) (g : Graph) (node : Term) :
    r.violations g node = .ok [] ↔
      r.Conforms (g.objects node r.predicate) ∧ r.Fits (g.objects node r.predicate) := by
  rw [conforms_iff]
  have hchecks := checks_violations hpattern hbounds g node
  generalize r.violations g node = outcome at hchecks ⊢
  cases hchecks with
  | @found found hshows hfound =>
    have hnil : found = [] ↔ (slots (g.objects node r.predicate)).flatMap
        (r.reported (g.objects node r.predicate) node.text) = [] := by
      rw [← hfound, List.map_eq_nil_iff]
    rw [Except.ok.injEq, hnil, List.flatMap_eq_nil_iff]
    refine forall₂_congr fun s _ => ⟨fun h hbroken => ?_, reported_eq_nil⟩
    simp [reported, hbroken] at h
  | @hidden s hs hbroken _ => exact iff_of_false (by simp) fun h => h s hs hbroken

open scoped Classical in
/-- A rule whose pattern, if any, is a regular expression and whose bounds are doubles finds no
violation exactly if the values of its predicate conform, and its integers have no more digits than
are read. What it finds are the violations of the broken slots, one for each and in their order:
every value is checked against every constraint. The check only fails, and always does, if a limit
that is broken has more digits than are written. -/
theorem violations_of_slots [Platform] (hpattern : r.PatternReads) (hbounds : r.DoubleBounds)
    (g : Graph) (node : Term) :
    (r.violations g node = .ok [] ↔
      r.Conforms (g.objects node r.predicate) ∧ r.Fits (g.objects node r.predicate))
    ∧ (r.violations g node = .error .longInteger ↔
      ∃ s ∈ slots (g.objects node r.predicate),
        r.Breaks (g.objects node r.predicate) s ∧ ¬ r.Shows s.component)
    ∧ ((∀ s ∈ slots (g.objects node r.predicate),
        r.Breaks (g.objects node r.predicate) s → r.Shows s.component) →
      ∃ found, r.violations g node = .ok found
        ∧ found.map Violation.unworded
          = ((slots (g.objects node r.predicate)).filter
              fun s => r.Breaks (g.objects node r.predicate) s).map
            fun s => r.violation node.text s.component.name "" (s.value.map Term.text)) := by
  refine ⟨violations_eq_nil_iff_conforms hpattern hbounds g node, ?_⟩
  have hchecks := checks_violations hpattern hbounds g node
  generalize r.violations g node = outcome at hchecks ⊢
  cases hchecks with
  | @found found hshows hfound =>
    refine ⟨iff_of_false (by simp) ?_, fun _ => ⟨found, rfl, ?_⟩⟩
    · rintro ⟨s, hs, hbroken, hhides⟩
      exact hhides (hshows s hs hbroken)
    · exact hfound.trans (flatMap_reported _ _ _)
  | hidden hs hbroken hhides =>
    exact ⟨iff_of_true rfl ⟨_, hs, hbroken, hhides⟩,
      fun hshows => absurd (hshows _ hs hbroken) hhides⟩

/-- At most one age, from 0 to 120 and written with digits. -/
def ageRule : Rule where
  name := "age"
  path := "age"
  valueType := .scalar .integer
  constraints :=
    { maxCount := some 1, pattern := some "[0-9]+"
      minInclusive := some (.double (.ofInt 0)), maxInclusive := some (.double (.ofInt 120)) }

/-- A node with three ages: one that is too low, one that is no number, and a node. -/
def agedGraph : Graph :=
  .ofList ([Term.literal { lexical := "-5" }, .literal { lexical := "12x" }, .iri "5"].map
    fun t => ⟨.iri "n", .iri "age", t⟩)

section

attribute [local instance] Platform.standard

theorem ageRule_patternReads : ageRule.PatternReads := by
  intro expression h
  obtain rfl : "[0-9]+" = expression := Option.some.inj h
  have hread : (Pattern.read Platform.groupDepth (.ofText "") "[0-9]+").isOk = true := by
    decide +kernel
  rcases hpattern : Pattern.read Platform.groupDepth (.ofText "") "[0-9]+" with e | pattern
  · rw [hpattern] at hread
    cases hread
  · exact ⟨pattern.matchesAll, congrArg (Except.map Pattern.matchesAll) hpattern⟩

/-- Every broken slot is reported: too many values, a pattern and a bound for the first, a pattern
and the type for the second, and nothing for the third. -/
theorem agedGraph_violations : ∃ found, ageRule.violations agedGraph (.iri "n") = .ok found
    ∧ found.map (fun v => (v.constraint, v.value))
      = [("maxCount", none), ("pattern", some "-5"), ("minInclusive", some "-5"),
        ("pattern", some "12x"), ("datatype", some "12x")]
    ∧ ¬ (ageRule.Conforms (agedGraph.objects (.iri "n") ageRule.predicate)
      ∧ ageRule.Fits (agedGraph.objects (.iri "n") ageRule.predicate)) := by
  have hbounds : ageRule.DoubleBounds := by
    intro kind bound h
    cases kind with
    | minInclusive | maxInclusive => exact ⟨_, (Option.some.inj h).symm⟩
    | minExclusive | maxExclusive => simp [BoundKind.bound, ageRule] at h
  have hshows : ∀ k, ageRule.Shows k := by
    intro k limit h
    cases k with
    | minCount | maxCount =>
      obtain rfl := Option.some.inj h
      decide +kernel
    | _ => simp [Component.limit?, ageRule] at h
  obtain ⟨hempty, -, hfound⟩ :=
    violations_of_slots ageRule_patternReads hbounds agedGraph (.iri "n")
  obtain ⟨found, hfound, -⟩ := hfound fun s _ _ => hshows s.component
  have hcauses : (ageRule.violations agedGraph (.iri "n")).map
      (List.map fun v => (v.constraint, v.value))
        = .ok [("maxCount", none), ("pattern", some "-5"), ("minInclusive", some "-5"),
          ("pattern", some "12x"), ("datatype", some "12x")] := by
    decide +kernel
  rw [hfound] at hcauses
  have hlist := Except.ok.inj hcauses
  refine ⟨found, hfound, hlist, fun hconforms => ?_⟩
  rw [Except.ok.inj (hfound.symm.trans (hempty.2 hconforms))] at hlist
  simp at hlist

/-- An integer of any number of digits. -/
def numberRule : Rule where
  name := "number"
  path := "number"
  valueType := .scalar .integer

/-- An integer with one digit more than are read. -/
def longNumber : Literal where
  lexical := .ofList (List.replicate (Numeral.maxIntegerDigits + 1) '1')

def numberGraph : Graph := .ofList [⟨.iri "n", .iri "number", .literal longNumber⟩]

/-- The only value of a node conforms to the rule, and still the check finds a violation: the
digits of the integer are too many. -/
theorem longNumber_reported :
    numberRule.PatternReads ∧ numberRule.DoubleBounds
    ∧ numberRule.Conforms (numberGraph.objects (.iri "n") numberRule.predicate)
    ∧ ∃ found, numberRule.violations numberGraph (.iri "n") = .ok found ∧ found ≠ [] := by
  have hpattern : numberRule.PatternReads := by
    rintro expression ⟨⟩
  have hbounds : numberRule.DoubleBounds := by
    intro kind bound h
    cases kind <;> cases h
  have hvalues : numberGraph.objects (.iri "n") numberRule.predicate = [.literal longNumber] := rfl
  have hdigits : Scalar.Digits (List.replicate (Numeral.maxIntegerDigits + 1) '1') :=
    ⟨List.cons_ne_nil _ _, fun c hc => List.eq_of_mem_replicate hc ▸ rfl⟩
  have hsigned : longNumber.lexical.toList
      = [] ++ List.replicate (Numeral.maxIntegerDigits + 1) '1' := String.toList_ofList
  have hconforms : numberRule.Conforms (numberGraph.objects (.iri "n") numberRule.predicate) := by
    rw [hvalues]
    refine ⟨by simp [numberRule], nofun, fun _ _ => nofun, fun _ _ => nofun, fun _ _ => nofun,
      fun _ _ => nofun, ?_, ?_, nofun⟩
    · intro l hl type htype
      obtain rfl := Term.literal.inj (List.mem_singleton.1 hl)
      obtain rfl : ScalarType.integer = type := ValueType.scalar.inj htype
      exact ⟨_, .integer hsigned .absent hdigits⟩
    · intro l hl type htype v number hv hnumber kind bound hbound
      cases kind <;> cases hbound
  have hunfit : ¬ numberRule.Fits (numberGraph.objects (.iri "n") numberRule.predicate) := by
    intro hfits
    rw [hvalues] at hfits
    have hcount := hfits longNumber (List.mem_singleton_self _) .integer rfl rfl
    rw [longNumber, String.toList_ofList, List.countP_replicate, if_pos (by decide)] at hcount
    exact Nat.not_succ_le_self _ hcount
  have hempty := violations_eq_nil_iff_conforms hpattern hbounds numberGraph (.iri "n")
  have hchecks := checks_violations hpattern hbounds numberGraph (.iri "n")
  refine ⟨hpattern, hbounds, hconforms, ?_⟩
  generalize numberRule.violations numberGraph (.iri "n") = outcome at hempty hchecks ⊢
  cases hchecks with
  | found => exact ⟨_, rfl, fun hnil => hunfit (hempty.1 (congrArg Except.ok hnil)).2⟩
  | @hidden s _ _ hhides =>
    -- The rule has no limit but the least count, which is zero.
    refine absurd (fun limit hlimit => ?_) hhides
    rcases s with ⟨k, _⟩
    cases k <;> cases hlimit
    decide +kernel

end

end Rule

end ShapeForge
