import ShapeForge.Proofs.Members
import ShapeForge.Proofs.Outcome

/-!
# Nodes without violations

A rule lists the violations of the number of values, of each value, and of the required value, so
it finds none exactly if all three parts are empty (`Rule.violations_eq_nil_iff`), and rules find
none exactly if each of them does (`shapeViolations_eq_nil_iff`). This is so exactly if the values
are what the constraints ask for (`Rule.violations_eq_nil_iff_satisfied`), whatever the property is
called.

The rules of a class are those of the properties that their names denote
(`ClassModel.mem_rules_iff`), also if two properties have one name.
-/

namespace ShapeForge

open Rdf (Graph Term)

theorem mapM_ok_iff {α β ε : Type} {f : α → Except ε β} {l : List α} :
    ∀ {found : List β}, l.mapM f = .ok found ↔ List.Forall₂ (fun a b => f a = .ok b) l found := by
  induction l with
  | nil => intro found; cases found <;> simp [pure, Except.pure]
  | cons a l ih =>
    intro found
    rw [List.mapM_cons]
    rcases ha : f a with e | b
    · cases found <;> simp [bind, Except.bind, ha]
    · rcases hl : l.mapM f with e | bs
      · cases found <;> simp [bind, Except.bind, ha, ← ih, hl]
      · cases found <;> simp [bind, Except.bind, pure, Except.pure, ha, ← ih, hl]

theorem mapM_ok_of_forall {α β ε : Type} {f : α → Except ε β} {g : α → β} {l : List α}
    (h : ∀ a ∈ l, f a = .ok (g a)) : l.mapM f = .ok (l.map g) := by
  rw [mapM_ok_iff, List.forall₂_map_right_iff, List.forall₂_same]
  exact h

theorem exists_of_mapM_error {α β ε : Type} {f : α → Except ε β} {e : ε} :
    ∀ {l : List α}, l.mapM f = .error e → ∃ a ∈ l, f a = .error e
  | [], h => by cases h
  | a :: l, h => by
    rw [List.mapM_cons] at h
    rcases bind_error_iff.1 h with h | ⟨_, -, h⟩
    · exact ⟨a, List.mem_cons_self, h⟩
    · rcases bind_error_iff.1 h with h | ⟨_, -, h⟩
      · obtain ⟨b, hb, he⟩ := exists_of_mapM_error h
        exact ⟨b, List.mem_cons_of_mem a hb, he⟩
      · cases h

theorem append_eq_nil_iff {α ε : Type} {x y : Except ε (List α)} :
    (do let a ← x; let b ← y; return a ++ b) = .ok [] ↔ x = .ok [] ∧ y = .ok [] := by
  rcases x with e | a
  · simp [bind, Except.bind]
  · rcases y with e | b <;> simp [bind, Except.bind, pure, Except.pure]

/-- Lists that are joined are found one after another. -/
theorem mapM_flatten_cons {α β ε : Type} (f : α → Except ε (List β)) (a : α) (l : List α) :
    ((a :: l).mapM f).map List.flatten
      = (do let own ← f a; let others ← (l.mapM f).map List.flatten; return own ++ others) := by
  rw [List.mapM_cons]
  rcases f a with e | own
  · rfl
  · rcases l.mapM f with e | others <;> rfl

/-- Lists that are joined to nothing are empty. -/
theorem forall₂_flatten_eq_nil {α β ε : Type} {f : α → Except ε (List β)} {l : List α} :
    (∃ found, List.Forall₂ (fun a b => f a = .ok b) l found ∧ found.flatten = []) ↔
      ∀ a ∈ l, f a = .ok [] := by
  constructor
  · rintro ⟨found, hall, hnil⟩
    induction hall with
    | nil => simp
    | cons hab _ ih =>
      rw [List.flatten_cons, List.append_eq_nil_iff] at hnil
      rw [hnil.1] at hab
      exact List.forall_mem_cons.2 ⟨hab, ih hnil.2⟩
  · intro h
    refine ⟨l.map fun _ => [], mapM_ok_iff.1 (mapM_ok_of_forall h), ?_⟩
    simp

namespace Rule

variable {r : Rule} {g : Graph} {node : Term} {focus : String}

section Limits

variable {constraint : String} {limit : Option Int} {isBroken : Int → Bool}
  {message : Int → String} {value : Option String}

theorem limitViolation_eq_nil_iff :
    r.limitViolation focus constraint limit isBroken message value = .ok [] ↔
      ∀ l, limit = some l → isBroken l = false := by
  unfold limitViolation
  rcases limit with _ | l
  · simp
  · cases hbroken : isBroken l <;> cases hwritable : Numeral.isWritable l <;>
      simp [hbroken, hwritable]

theorem limitViolation_error_iff {e : CheckError} :
    r.limitViolation focus constraint limit isBroken message value = .error e ↔
      e = .longInteger
        ∧ ∃ l, limit = some l ∧ isBroken l = true ∧ Numeral.isWritable l = false := by
  unfold limitViolation
  rcases limit with _ | l
  · simp
  · cases hbroken : isBroken l <;> cases hwritable : Numeral.isWritable l <;>
      simp [hbroken, hwritable, @eq_comm _ e]

theorem of_mem_limitViolation {found : List Violation} {v : Violation}
    (hfound : r.limitViolation focus constraint limit isBroken message value = .ok found)
    (h : v ∈ found) :
    ∃ l, limit = some l ∧ isBroken l = true
      ∧ v = r.violation focus constraint (message l) value := by
  unfold limitViolation at hfound
  rcases limit with _ | l
  · simp [← Except.ok.inj hfound] at h
  · dsimp only at hfound
    split_ifs at hfound with hkept
    · simp [← Except.ok.inj hfound] at h
    · rw [← Except.ok.inj hfound, List.mem_singleton] at h
      exact ⟨l, rfl, by simpa using hkept, h⟩

end Limits

theorem countViolations_eq_nil_iff {count : Int} :
    r.countViolations focus count = .ok [] ↔ r.constraints.minCount ≤ count
      ∧ ∀ most, r.constraints.maxCount = some most → count ≤ most := by
  rw [countViolations, append_eq_nil_iff, limitViolation_eq_nil_iff, limitViolation_eq_nil_iff]
  simp

/-- A limit of the number of values that is not kept cannot be shown. -/
def HidesCount (r : Rule) (count : Int) : Prop :=
  count < r.constraints.minCount ∧ Numeral.isWritable r.constraints.minCount = false
    ∨ ∃ most, r.constraints.maxCount = some most ∧ most < count ∧ Numeral.isWritable most = false

theorem countViolations_error {count : Int} {e : CheckError}
    (h : r.countViolations focus count = .error e) : e = .longInteger ∧ r.HidesCount count := by
  rcases of_append_error h with h | h
  · obtain ⟨rfl, least, hleast, hlt, hhidden⟩ := limitViolation_error_iff.1 h
    obtain rfl := Option.some.inj hleast
    exact ⟨rfl, .inl ⟨of_decide_eq_true hlt, hhidden⟩⟩
  · obtain ⟨rfl, most, hmost, hlt, hhidden⟩ := limitViolation_error_iff.1 h
    exact ⟨rfl, .inr ⟨most, hmost, of_decide_eq_true hlt, hhidden⟩⟩

/-- A violation of the number of values names the count that is not kept. -/
theorem of_mem_countViolations {count : Int} {found : List Violation} {v : Violation}
    (hfound : r.countViolations focus count = .ok found) (h : v ∈ found) :
    v.property = r.name ∧ v.path = r.path
      ∧ (v.constraint = "minCount" ∨ v.constraint = "maxCount"
        ∧ ∃ most, r.constraints.maxCount = some most ∧ most < count) := by
  obtain ⟨tooFew, hfew, hfound⟩ := bind_ok_iff.1 hfound
  obtain ⟨tooMany, hmany, hfound⟩ := bind_ok_iff.1 hfound
  rw [← Except.ok.inj hfound, List.mem_append] at h
  rcases h with h | h
  · obtain ⟨least, -, -, rfl⟩ := of_mem_limitViolation hfew h
    exact ⟨rfl, rfl, .inl rfl⟩
  · obtain ⟨most, hmost, hlt, rfl⟩ := of_mem_limitViolation hmany h
    exact ⟨rfl, rfl, .inr ⟨rfl, most, hmost, of_decide_eq_true hlt⟩⟩

theorem of_mem_hasValueViolations {values : List Term} {v : Violation}
    (h : v ∈ r.hasValueViolations focus values) : v.constraint = "hasValue" := by
  unfold hasValueViolations at h
  split at h
  · simp at h
  · split_ifs at h
    · simp at h
    · rw [List.mem_singleton] at h
      subst h
      rfl

theorem violations_ok_iff [Platform] {found : List Violation} :
    r.violations g node = .ok found ↔
      ∃ counts each, r.countViolations node.text (g.objects node r.predicate).length = .ok counts
        ∧ List.Forall₂ (fun t vs => r.valueViolations node.text t = .ok vs)
          (g.objects node r.predicate) each
        ∧ found = counts ++ each.flatten
          ++ r.hasValueViolations node.text (g.objects node r.predicate) := by
  rw [violations]
  simp only [bind_ok_iff, mapM_ok_iff, pure, Except.pure, Except.ok.injEq]
  constructor
  · rintro ⟨counts, hcounts, each, heach, rfl⟩
    exact ⟨counts, each, hcounts, heach, rfl⟩
  · rintro ⟨counts, each, hcounts, heach, rfl⟩
    exact ⟨counts, hcounts, each, heach, rfl⟩

/-- If every value passes, only counts and the required value can be violated. -/
theorem violations_of_passing [Platform]
    (h : ∀ t ∈ g.objects node r.predicate, r.valueViolations node.text t = .ok []) :
    r.violations g node
      = (r.countViolations node.text (g.objects node r.predicate).length).map
        (· ++ r.hasValueViolations node.text (g.objects node r.predicate)) := by
  rw [violations, mapM_ok_of_forall h]
  rcases r.countViolations node.text (g.objects node r.predicate).length with e | counts
  · rfl
  · simp [bind, Except.bind, pure, Except.pure, Except.map]

theorem violations_eq_nil_iff [Platform] :
    r.violations g node = .ok [] ↔
      r.countViolations node.text (g.objects node r.predicate).length = .ok []
        ∧ (∀ t ∈ g.objects node r.predicate, r.valueViolations node.text t = .ok [])
        ∧ r.hasValueViolations node.text (g.objects node r.predicate) = [] := by
  rw [violations_ok_iff, ← forall₂_flatten_eq_nil]
  constructor
  · rintro ⟨counts, each, hcounts, heach, hnil⟩
    have hnil' := hnil.symm
    rw [List.append_eq_nil_iff, List.append_eq_nil_iff] at hnil'
    exact ⟨hnil'.1.1 ▸ hcounts, ⟨each, heach, hnil'.1.2⟩, hnil'.2⟩
  · rintro ⟨hcounts, ⟨each, heach, hnil⟩, hvalue⟩
    exact ⟨[], each, hcounts, heach, by rw [hnil, hvalue]; rfl⟩

end Rule

/-! ## What a rule demands -/

/-- What constraints ask of a number. -/
def Constraints.Bounds (c : Constraints) (number : Bound) : Prop :=
  (∀ b, c.minInclusive = some b → b.le number = true)
    ∧ (∀ b, c.maxInclusive = some b → number.le b = true)
    ∧ (∀ b, c.minExclusive = some b → b.lt number = true)
    ∧ ∀ b, c.maxExclusive = some b → number.lt b = true

/-- What constraints ask of a literal of some type. -/
structure Constraints.Admits [Platform] (c : Constraints) (type : ValueType) (lexical : String) :
    Prop where
  minLength : ∀ least, c.minLength = some least → least ≤ lexical.length
  maxLength : ∀ most, c.maxLength = some most → lexical.length ≤ most
  pattern : ∀ expression, c.pattern = some expression →
    ∃ accepts, Platform.compile (.ofText (c.flags.getD "")) expression = .ok accepts
      ∧ accepts lexical = true
  typed : ∀ scalar, type = .scalar scalar → ∃ value, scalar.read lexical = .ok value
    ∧ ∀ number, value.number? = some number → c.Bounds number

/-- What constraints ask of the values of a predicate. -/
structure Constraints.Satisfied [Platform] (c : Constraints) (type : ValueType)
    (values : List Term) : Prop where
  minCount : c.minCount ≤ values.length
  maxCount : ∀ most, c.maxCount = some most → values.length ≤ most
  listed : ∀ listed, c.inValues = some listed → ∀ t ∈ values, t.text ∈ listed
  literal : ∀ l, .literal l ∈ values → c.Admits type l.lexical
  hasValue : ∀ required, c.hasValue = some required → ∃ t ∈ values, t.text = required

namespace Rule

variable {r : Rule} {g : Graph} {node : Term} {focus lexical : String}

theorem lengthViolations_eq_nil_iff :
    r.lengthViolations focus lexical = .ok [] ↔
      (∀ least, r.constraints.minLength = some least → least ≤ lexical.length)
        ∧ ∀ most, r.constraints.maxLength = some most → lexical.length ≤ most := by
  rw [lengthViolations, append_eq_nil_iff, limitViolation_eq_nil_iff, limitViolation_eq_nil_iff]
  simp

theorem patternViolations_eq_nil_iff [Platform] :
    r.patternViolations focus lexical = .ok [] ↔
      ∀ expression, r.constraints.pattern = some expression →
        ∃ accepts, Platform.compile (.ofText (r.constraints.flags.getD "")) expression = .ok accepts
          ∧ accepts lexical = true := by
  unfold patternViolations
  rcases r.constraints.pattern with _ | expression
  · simp
  · rcases hread : Platform.compile (.ofText (r.constraints.flags.getD "")) expression with
      e | accepts
    · simp [hread]
    · by_cases h : accepts lexical = true <;> simp [hread, h]

theorem memberViolations_eq_nil_iff {text : String} :
    r.memberViolations focus text = [] ↔
      ∀ listed, r.constraints.inValues = some listed → text ∈ listed := by
  unfold memberViolations
  rcases r.constraints.inValues with _ | listed
  · simp
  · by_cases h : text ∈ listed <;> simp [h]

theorem boundViolation_eq_nil_iff {value : Bound} {check : BoundCheck} :
    r.boundViolation focus lexical value check = .ok [] ↔
      ∀ bound, check.bound = some bound → check.passes value bound = true := by
  unfold boundViolation
  rcases check.bound with _ | bound
  · simp
  · by_cases h : check.passes value bound = true
    · simp [h]
    · rcases hshown : bound.shown with e | shown <;>
        simp [h, hshown, bind, Except.bind, pure, Except.pure]

theorem typeViolations_eq_nil_iff :
    r.typeViolations focus lexical = .ok [] ↔
      ∀ scalar, r.valueType = .scalar scalar → ∃ value, scalar.read lexical = .ok value
        ∧ ∀ number, value.number? = some number → r.constraints.Bounds number := by
  unfold typeViolations
  split
  · rename_i h
    simp [h]
  · rename_i h
    -- A text is read as it is, and is no number.
    simp [h, ScalarType.read, ScalarValue.number?]
  · rename_i type _ h
    rcases hread : type.read lexical with e | value
    · simp [h, hread]
    · rcases hnumber : value.number? with _ | number
      · simp [h, hread, hnumber]
      · have heach := forall₂_flatten_eq_nil (f := r.boundViolation focus lexical number)
          (l := boundChecks r.constraints)
        simp only [boundViolation_eq_nil_iff, ← mapM_ok_iff] at heach
        have hbounds : r.constraints.Bounds number ↔ ∀ check ∈ boundChecks r.constraints,
            ∀ bound, check.bound = some bound → check.passes number bound = true := by
          simp [Constraints.Bounds, boundChecks]
        rw [← hbounds] at heach
        rcases hmapM : (boundChecks r.constraints).mapM
            (r.boundViolation focus lexical number) with e | found
        · simpa [h, hmapM, hread, hnumber, bind, Except.bind] using heach
        · simpa [h, hmapM, hread, hnumber, bind, Except.bind, pure, Except.pure] using heach

theorem valueViolations_eq_nil_iff [Platform] {t : Term} :
    r.valueViolations focus t = .ok [] ↔
      (∀ listed, r.constraints.inValues = some listed → t.text ∈ listed)
        ∧ ∀ l, t = .literal l → r.constraints.Admits r.valueType l.lexical := by
  rw [← @memberViolations_eq_nil_iff r focus t.text, valueViolations]
  rcases t with s | label | l
  · simp [Term.isLiteral]
  · simp [Term.isLiteral]
  · have hparts : (do
          let length ← r.lengthViolations focus l.lexical
          let pattern ← r.patternViolations focus l.lexical
          let type ← r.typeViolations focus l.lexical
          return length ++ pattern ++ r.memberViolations focus l.lexical ++ type) = Except.ok [] ↔
        r.memberViolations focus l.lexical = [] ∧ r.lengthViolations focus l.lexical = .ok []
          ∧ r.patternViolations focus l.lexical = .ok []
          ∧ r.typeViolations focus l.lexical = .ok [] := by
      simp only [bind_ok_iff, pure, Except.pure, Except.ok.injEq, List.append_eq_nil_iff]
      constructor
      · rintro ⟨_, hlength, _, hpattern, _, htype, ⟨⟨rfl, rfl⟩, hmember⟩, rfl⟩
        exact ⟨hmember, hlength, hpattern, htype⟩
      · rintro ⟨hmember, hlength, hpattern, htype⟩
        exact ⟨_, hlength, _, hpattern, _, htype, ⟨⟨rfl, rfl⟩, hmember⟩, rfl⟩
    simp only [Term.isLiteral, Term.text, if_true]
    rw [hparts, lengthViolations_eq_nil_iff, patternViolations_eq_nil_iff,
      typeViolations_eq_nil_iff]
    refine and_congr_right fun _ => ⟨?_, ?_⟩
    · rintro ⟨⟨hmin, hmax⟩, hpattern, htyped⟩ m hm
      obtain rfl : l = m := by simpa using hm
      exact ⟨hmin, hmax, hpattern, htyped⟩
    · intro h
      obtain ⟨hmin, hmax, hpattern, htyped⟩ := h l rfl
      exact ⟨⟨hmin, hmax⟩, hpattern, htyped⟩

theorem hasValueViolations_eq_nil_iff {values : List Term} :
    r.hasValueViolations focus values = [] ↔
      ∀ required, r.constraints.hasValue = some required → ∃ t ∈ values, t.text = required := by
  unfold hasValueViolations
  rcases r.constraints.hasValue with _ | required
  · simp
  · by_cases h : ∃ t ∈ values, t.text = required <;> simp [h]

/-- A rule finds no violation exactly if its constraints are satisfied. -/
theorem violations_eq_nil_iff_satisfied [Platform] :
    r.violations g node = .ok [] ↔
      r.constraints.Satisfied r.valueType (g.objects node r.predicate) := by
  rw [violations_eq_nil_iff, countViolations_eq_nil_iff, hasValueViolations_eq_nil_iff]
  simp only [valueViolations_eq_nil_iff]
  constructor
  · rintro ⟨⟨hmin, hmax⟩, hvalues, hrequired⟩
    exact ⟨hmin, hmax, fun listed hl t ht => (hvalues t ht).1 listed hl,
      fun l hl => (hvalues _ hl).2 l rfl, hrequired⟩
  · rintro ⟨hmin, hmax, hlisted, hliteral, hrequired⟩
    refine ⟨⟨hmin, hmax⟩, fun t ht => ⟨fun listed hl => hlisted listed hl t ht, ?_⟩, hrequired⟩
    rintro l rfl
    exact hliteral l ht

end Rule

section Rules

variable {rules : List Rule} {g : Graph} {node : Term}

theorem shapeViolations_ok_iff [Platform] {found : List Violation} :
    shapeViolations rules g node = .ok found ↔
      ∃ each, List.Forall₂ (fun (r : Rule) vs => r.violations g node = .ok vs) rules each
        ∧ found = each.flatten := by
  rw [shapeViolations]
  simp only [← mapM_ok_iff]
  rcases rules.mapM fun (r : Rule) => r.violations g node with e | each
  · simp [Except.map]
  · simp [Except.map, eq_comm]

theorem shapeViolations_eq_nil_iff [Platform] :
    shapeViolations rules g node = .ok [] ↔ ∀ r ∈ rules, r.violations g node = .ok [] := by
  rw [shapeViolations_ok_iff, ← forall₂_flatten_eq_nil]
  simp only [eq_comm (a := ([] : List Violation))]

theorem exists_of_mem_shapeViolations [Platform] {found : List Violation} {v : Violation}
    (h : shapeViolations rules g node = .ok found) (hv : v ∈ found) :
    ∃ r ∈ rules, ∃ own, r.violations g node = .ok own ∧ v ∈ own := by
  obtain ⟨each, heach, rfl⟩ := shapeViolations_ok_iff.1 h
  obtain ⟨own, hown, hv⟩ := List.mem_flatten.1 hv
  obtain ⟨i, rfl⟩ := List.get_of_mem hown
  obtain ⟨hlength, hrules⟩ := List.forall₂_iff_get.1 heach
  exact ⟨_, List.get_mem _ _, _, hrules i (hlength.symm ▸ i.isLt) i.isLt, hv⟩

end Rules

/-! ## The rules of a class -/

/-- A table made from a list has under each key what the last member with the key gives it. -/
theorem Assoc.get?_foldl_put {α β : Type} (f : α → String) (g : α → β) (key : String) (l : List α) :
    get? key (l.foldl (fun entries a => put (f a) (g a) entries) [])
      = (l.reverse.find? fun a => f a == key).map g := by
  induction l using List.reverseRecOn with
  | nil => rfl
  | append_singleton l a ih =>
    rw [List.foldl_append, List.foldl_cons, List.foldl_nil, List.reverse_append,
      List.reverse_singleton, List.singleton_append, List.find?_cons]
    by_cases h : f a = key
    · subst h
      rw [get?_put_self]
      simp
    · rw [get?_put_of_ne (Ne.symm h), ih, beq_eq_false_iff_ne.2 h]

namespace ClassModel

variable {c : ClassModel} {name : String} {p : PropertyModel}

theorem of_property? (h : c.property? name = some p) : p ∈ c.properties ∧ p.name = name :=
  ⟨List.mem_reverse.1 (List.mem_of_find?_eq_some h), by simpa using List.find?_some h⟩

/-- The rules of a class are those of the properties that their names denote. -/
theorem mem_rules_iff {r : Rule} :
    r ∈ c.rules ↔ ∃ p, c.property? p.name = some p ∧ p.rule = r := by
  have hget := fun key =>
    Assoc.get?_foldl_put PropertyModel.name PropertyModel.rule key c.properties
  rw [rules, List.mem_map]
  constructor
  · rintro ⟨⟨key, r⟩, he, rfl⟩
    have hkeys :=
      (Assoc.foldl_put_keys PropertyModel.name PropertyModel.rule c.properties [] (by simp)).1
    rw [List.Nodup, List.pairwise_map] at hkeys
    have hfound := (hget key).symm.trans (Assoc.get?_of_mem hkeys he)
    obtain ⟨p, hp, rfl⟩ := Option.map_eq_some_iff.1 hfound
    have hname := (of_property? hp).2
    exact ⟨p, hname ▸ hp, rfl⟩
  · rintro ⟨p, hp, rfl⟩
    refine ⟨(p.name, p.rule), Assoc.mem_of_get? ?_, rfl⟩
    rw [hget, show c.properties.reverse.find? (fun q => q.name == p.name) = some p from hp]
    rfl

theorem rule_mem_rules (h : c.property? name = some p) : p.rule ∈ c.rules := by
  have hname := (of_property? h).2
  exact mem_rules_iff.2 ⟨p, hname ▸ h, rfl⟩

end ClassModel

end ShapeForge
