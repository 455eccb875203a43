import ShapeForge.Platform.Standard
import ShapeForge.Proofs.Conformance
import ShapeForge.Proofs.Predicates

/-!
# Declarations of properties

An own property of a class is what the first declaration of its path says
(`Members.FirstDeclared`); later declarations of the path change nothing. Inherited properties are
copies of those of a super class, so type, counts and constraints of every property go back to a
declaration (`Ontology.property_cases`).
-/

namespace ShapeForge

/-- A property has the type, the counts and the constraints that a shape declares for its path. -/
structure PropertyModel.Models (context : Context) (names : List (String × ClassNames))
    (d : PropertyShape) (p : PropertyModel) : Prop where
  iri : p.iri = d.path
  type : p.type = d.targetType context names
  isList : p.isList = d.isList
  constraints : p.constraints = d.constraints

namespace Model.Members

variable (o : Ontology) (names : List (String × ClassNames)) {m : Members}
  {start : List PropertyModel} {declared : List PropertyShape}

/-- Every own property is what the first declaration of its path says. -/
def FirstDeclared (declared : List PropertyShape) (m : Members) : Prop :=
  ∀ p ∈ m.own, ∃ d, declared.find? (·.path == p.iri) = some d ∧ p.Models o.context names d

variable {o names}

theorem FirstDeclared.concat {m' : Members} {d : PropertyShape} {q : PropertyModel}
    (h : m.FirstDeclared o names declared) (hnew : d.path ∉ declared.map PropertyShape.path)
    (hown : m'.own = m.own ++ [q]) (hq : q.Models o.context names d) :
    m'.FirstDeclared o names (declared ++ [d]) := by
  intro p hp
  rw [hown, List.mem_append, List.mem_singleton] at hp
  rcases hp with hp | rfl
  · obtain ⟨e, he, hmodels⟩ := h p hp
    exact ⟨e, by rw [List.find?_append, he]; rfl, hmodels⟩
  · have hnone : declared.find? (·.path == p.iri) = none := by
      rw [List.find?_eq_none]
      intro e he heq
      refine hnew (List.mem_map.2 ⟨e, he, ?_⟩)
      rw [← hq.iri]
      simpa using heq
    refine ⟨d, ?_, hq⟩
    rw [List.find?_append, hnone]
    simp [hq.iri]

theorem FirstDeclared.add (hsplit : m.Split start declared)
    (h : m.FirstDeclared o names declared) (d : PropertyShape) :
    (m.add o names d).FirstDeclared o names (declared ++ [d]) := by
  unfold Members.add
  split_ifs with hown
  · -- The path was declared before, so its first declaration stays.
    intro p hp
    obtain ⟨e, he, hmodels⟩ := h p hp
    exact ⟨e, by rw [List.find?_append, he]; rfl, hmodels⟩
  · have hnew : d.path ∉ declared.map PropertyShape.path := by
      rw [← hsplit.own_iris]
      intro hmem
      obtain ⟨q, hq, hiri⟩ := List.mem_map.1 hmem
      exact hown (List.any_eq_true.2 ⟨q, hq, by simpa using hiri⟩)
    rcases hf : m.inherited.find? (·.iri == d.path) with _ | q
    · simp only [hf]
      exact h.concat hnew rfl ⟨rfl, rfl, rfl, rfl⟩
    · simp only [hf]
      exact h.concat hnew rfl ⟨rfl, rfl, rfl, rfl⟩

theorem FirstDeclared.foldl_add (hstart : (start.map PropertyModel.iri).Nodup) :
    ∀ (ds : List PropertyShape) {declared : List PropertyShape} {m : Members},
      m.Split start declared → m.FirstDeclared o names declared →
        (ds.foldl (Members.add o names) m).FirstDeclared o names (declared ++ ds)
  | [], declared, m, _, h => by rwa [List.append_nil]
  | d :: ds, declared, m, hsplit, h => by
    rw [List.foldl_cons, List.append_cons]
    exact foldl_add hstart ds (hsplit.add o names hstart d) (h.add hsplit d)

end Model.Members

namespace Model

theorem classModel_firstDeclared (o : Ontology) (names : List (String × ClassNames)) (iri : String)
    (supers : List ClassModel) :
    ∃ m : Members, m.Split (inherited supers) (o.declared iri)
      ∧ m.FirstDeclared o names (o.declared iri)
      ∧ (classModel o names iri supers).1.properties = m.own ++ m.inherited := by
  have hstart := Members.split_start (inherited supers)
  have hnodup := inherited_iris_nodup supers
  refine ⟨_, (hstart _).foldl_add o names hnodup (o.declared iri), ?_, rfl⟩
  refine Members.FirstDeclared.foldl_add hnodup (o.declared iri) (hstart _) ?_
  simp [Members.FirstDeclared]

theorem exists_of_mem_inherited {supers : List ClassModel} {p : PropertyModel}
    (hp : p ∈ inherited supers) : ∃ s ∈ supers, ∃ q ∈ s.properties, p = q.asInherited := by
  have hfind := find_inherited supers p.iri
  rw [find_of_nodup_map (inherited_iris_nodup supers) hp] at hfind
  obtain ⟨q, hq, heq⟩ := Option.map_eq_some_iff.1 hfind.symm
  obtain ⟨s, hs, hqs⟩ := List.mem_flatMap.1 (mem_of_find_iri hq).1
  exact ⟨s, hs, q, hqs, heq.symm⟩

/-- The properties of a class keep what is true of inherited ones and of newly named ones. -/
theorem named_of_mem_classModel (o : Ontology) (names : List (String × ClassNames))
    (iri : String) {supers : List ClassModel} {P : String → String → Prop}
    (hsupers : ∀ s ∈ supers, ∀ p ∈ s.properties, P p.iri p.name)
    (hnew : ∀ d ∈ o.declared iri, ∀ a : Naming.Allocator,
      P d.path (a.choose (memberName o.context d) .none)) :
    ∀ p ∈ (classModel o names iri supers).1.properties, P p.iri p.name := by
  have hinherited : ∀ p ∈ inherited supers, P p.iri p.name := by
    intro p hp
    obtain ⟨s, hs, q, hq, rfl⟩ := exists_of_mem_inherited hp
    exact hsupers s hs q hq
  refine List.foldlRecOn (motive := fun (m : Members) =>
    ∀ p ∈ m.own ++ m.inherited, P p.iri p.name) (o.declared iri) (Members.add o names)
    hinherited fun m ih d hd => ?_
  rw [List.forall_mem_append] at ih
  obtain ⟨hown, hrest⟩ := ih
  unfold Members.add
  split_ifs
  · exact List.forall_mem_append.2 ⟨hown, hrest⟩
  · rcases hfind : m.inherited.find? (·.iri == d.path) with _ | q
    · simp only [hfind, List.forall_mem_append, List.forall_mem_singleton]
      exact ⟨⟨hown, hnew d hd m.names⟩, hrest⟩
    · -- A predicate that is declared again keeps the name under which it is inherited.
      obtain ⟨hq, hiri⟩ := mem_of_find_iri hfind
      simp only [hfind, List.forall_mem_append, List.forall_mem_singleton]
      exact ⟨⟨hown, hiri ▸ hrest q hq⟩, fun p hp => hrest p (List.mem_of_mem_erase hp)⟩

end Model

/-- What a rule says about values of a type. -/
def TargetType.valueType : TargetType → ValueType
  | .literal type _ => .scalar type
  | type => .other type.kind

theorem ValueType.ofName_name (type : ScalarType) : ofName type.name = .scalar type := by
  cases type <;> decide

theorem PropertyModel.rule_valueType (p : PropertyModel) :
    p.rule.valueType = p.type.valueType := by
  unfold PropertyModel.rule PropertyModel.valueType TargetType.valueType
  rcases p.type with ⟨type, datatype⟩ | _ | _
  · exact ValueType.ofName_name type
  · exact (by decide : ValueType.ofName "object" = .other "object")
  · exact (by decide : ValueType.ofName "resource" = .other "resource")

namespace Ontology

open Rdf (Graph Term)

variable {o : Ontology} {c : ClassModel}

/-- The first declaration of a path for a class. -/
def firstDeclared? (o : Ontology) (iri path : String) : Option PropertyShape :=
  (o.declared iri).find? (·.path == path)

/-- A property is what the first declaration of its path says, or it is inherited. -/
theorem property_cases (hc : c ∈ o.resolve.1) {p : PropertyModel} (hp : p ∈ c.properties) :
    (p.inherited = false ∧ ∃ d, o.firstDeclared? c.iri p.iri = some d
        ∧ p.Models o.context o.classNames d)
      ∨ p.inherited = true
        ∧ ∃ s ∈ superModels o.resolve.1 c, ∃ q ∈ s.properties, p = q.asInherited := by
  obtain ⟨m, hsplit, hfirst, heq⟩ :=
    Model.classModel_firstDeclared o o.classNames c.iri (superModels o.resolve.1 c)
  rw [← (o.eq_classModel_of_mem_resolve hc).1] at heq
  rw [heq, List.mem_append] at hp
  rcases hp with hp | hp
  · exact .inl ⟨hsplit.own p hp, hfirst p hp⟩
  · rw [hsplit.inherited] at hp
    have hmem := (List.mem_filter.1 hp).1
    exact .inr ⟨Model.inherited_of_mem_inherited hmem, Model.exists_of_mem_inherited hmem⟩

/-- Every property goes back to the first declaration of its path for the class itself or for a
class above it. -/
theorem exists_declaration : ∀ c ∈ o.resolve.1, ∀ p ∈ c.properties,
    ∃ e, (e = c ∨ Ancestor o.resolve.1 c e)
      ∧ ∃ d, o.firstDeclared? e.iri p.iri = some d ∧ p.Models o.context o.classNames d := by
  refine o.resolve_induction fun c hc ih p hp => ?_
  rcases property_cases hc hp with ⟨-, d, hd, hmodels⟩ | ⟨-, s, hs, q, hq, rfl⟩
  · exact ⟨c, .inl rfl, d, hd, hmodels⟩
  · obtain ⟨e, he, d, hd, hmodels⟩ := ih s hs q hq
    refine ⟨e, .inr ?_, d, hd, ⟨hmodels.iri, hmodels.type, hmodels.isList, hmodels.constraints⟩⟩
    rcases he with rfl | he
    · exact .single hs
    · exact .head hs he

theorem firstDeclared?_eq_some {iri path : String} {d : PropertyShape}
    (h : o.firstDeclared? iri path = some d) : d ∈ o.declared iri ∧ d.path = path :=
  ⟨List.mem_of_find?_eq_some h, by simpa using List.find?_some h⟩

theorem exists_class_of_classNames {iri : String} {names : ClassNames}
    (h : Assoc.get? iri o.classNames = some names) :
    ∃ d ∈ o.resolve.1, d.iri = iri ∧ d.names = names := by
  have hmem := Assoc.mem_of_get? h
  have hkey : iri ∈ o.resolve.1.map ClassModel.iri := by
    rw [o.resolve_iris, ← o.mem_classNames_keys]
    exact List.mem_map.2 ⟨_, hmem, rfl⟩
  obtain ⟨d, hd, rfl⟩ := List.mem_map.1 hkey
  have hnames := o.mem_classNames_of_mem_resolve hd
  have hsame := List.inj_on_of_nodup_map o.classNames_keys_nodup hmem hnames rfl
  rw [Prod.mk.injEq] at hsame
  exact ⟨d, hd, rfl, hsame.2.symm⟩

/-- An object property refers, by class and module, to the emitted class that its declaration asks
for. -/
theorem exists_class_of_object (hc : c ∈ o.resolve.1) {p : PropertyModel} (hp : p ∈ c.properties)
    {className moduleName : String} (htype : p.type = .object className moduleName) :
    ∃ e, (e = c ∨ Ancestor o.resolve.1 c e)
      ∧ ∃ d, o.firstDeclared? e.iri p.iri = some d
        ∧ ∃ t ∈ o.resolve.1, d.targetClass = some t.iri ∧ t.className = className
          ∧ t.moduleName = moduleName := by
  obtain ⟨e, he, d, hd, hmodels⟩ := exists_declaration c hc p hp
  refine ⟨e, he, d, hd, ?_⟩
  rw [hmodels.type, PropertyShape.targetType] at htype
  split_ifs at htype
  split at htype
  · rename_i found hfound
    obtain ⟨iri, hiri, hget⟩ := Option.bind_eq_some_iff.1 hfound
    split_ifs at hget
    rw [TargetType.object.injEq] at htype
    obtain ⟨t, ht, rfl, rfl⟩ := exists_class_of_classNames hget
    exact ⟨t, ht, hiri, htype⟩
  · simp at htype

/-- The path of a declaration is that of an own property. -/
theorem exists_own_of_declared (hc : c ∈ o.resolve.1) {d : PropertyShape}
    (hd : d ∈ o.declared c.iri) :
    ∃ p ∈ c.properties, p.iri = d.path ∧ p.inherited = false := by
  obtain ⟨m, hsplit, heq⟩ := properties_split hc
  obtain ⟨p, hp, hiri⟩ := List.mem_map.1 ((hsplit.own_iris d.path).2 (List.mem_map_of_mem hd))
  exact ⟨p, heq ▸ List.mem_append_left _ hp, hiri, hsplit.own p hp⟩

/-! ## Rules of declarations -/

/-- The rule that a declaration asks for. -/
def declaredRule (o : Ontology) (d : PropertyShape) : Rule where
  name := d.name
  path := d.path
  valueType := (d.targetType o.context o.classNames).valueType
  constraints := d.constraints

theorem violations_eq_nil_iff_declared [Platform] {p : PropertyModel} {d : PropertyShape}
    (h : p.Models o.context o.classNames d) {g : Graph} {node : Term} :
    p.rule.violations g node = .ok [] ↔ (o.declaredRule d).violations g node = .ok [] := by
  rw [Rule.violations_eq_nil_iff_satisfied, Rule.violations_eq_nil_iff_satisfied,
    p.rule_valueType, h.type, show p.rule.predicate = (o.declaredRule d).predicate from
      congrArg Term.iri h.iri, show p.rule.constraints = d.constraints from h.constraints]
  rfl

/-- The rules of a class ask for what the first declaration of each path and the inherited
properties ask for, and for nothing else. So a declaration is kept if it is the first of its path,
and all are kept if no path is declared twice. -/
theorem no_violations_iff_firstDeclared [Platform] (hc : c ∈ o.resolve.1)
    (hnames : (c.properties.map PropertyModel.name).Nodup) (g : Graph) (node : Term) :
    (shapeViolations c.rules g node = .ok [] ↔
        (∀ d ∈ o.declared c.iri, o.firstDeclared? c.iri d.path = some d →
          (o.declaredRule d).violations g node = .ok [])
        ∧ ∀ p ∈ c.properties, p.inherited = true → p.rule.violations g node = .ok [])
      ∧ (((o.declared c.iri).map PropertyShape.path).Nodup →
        shapeViolations c.rules g node = .ok [] →
          ∀ d ∈ o.declared c.iri, (o.declaredRule d).violations g node = .ok []) := by
  have hiff : shapeViolations c.rules g node = .ok [] ↔
      (∀ d ∈ o.declared c.iri, o.firstDeclared? c.iri d.path = some d →
        (o.declaredRule d).violations g node = .ok [])
      ∧ ∀ p ∈ c.properties, p.inherited = true → p.rule.violations g node = .ok [] := by
    rw [shapeViolations_eq_nil_iff, ClassModel.rules_eq_iff.2 hnames, List.forall_mem_map]
    constructor
    · refine fun h => ⟨fun d hd hfirst => ?_, fun p hp _ => h p hp⟩
      -- The own property of the path is modelled on the first declaration, which is this one.
      obtain ⟨p, hp, hiri, hown⟩ := exists_own_of_declared hc hd
      rcases property_cases hc hp with ⟨-, e, he, hmodels⟩ | ⟨hinherited, -⟩
      · rw [hiri, hfirst] at he
        obtain rfl := Option.some.inj he
        exact (violations_eq_nil_iff_declared hmodels).1 (h p hp)
      · simp [hown] at hinherited
    · rintro ⟨hfirst, hinherited⟩ p hp
      rcases property_cases hc hp with ⟨-, d, hd, hmodels⟩ | ⟨hflag, -⟩
      · obtain ⟨hmem, hpath⟩ := firstDeclared?_eq_some hd
        exact (violations_eq_nil_iff_declared hmodels).2 (hfirst d hmem (hpath ▸ hd))
      · exact hinherited p hp hflag
  refine ⟨hiff, fun hnodup h d hd => (hiff.1 h).1 d hd ?_⟩
  exact find_of_nodup_map hnodup hd

/-- A class with two declarations of one path, of which the second requires a value. -/
def redeclared : Ontology where
  shapes :=
    [⟨"s", "http://ex.org/P",
      [{ path := "http://ex.org/name", name := "name" },
       { path := "http://ex.org/name", name := "name", constraints := { minCount := 1 } }]⟩]
  classes := [⟨"http://ex.org/P", "P", []⟩]

section

attribute [local instance] Platform.standard

/-- The rules accept a node without the required value. -/
theorem redeclared_minCount_lost : ∃ c ∈ redeclared.resolve.1,
    (c.properties.map PropertyModel.name).Nodup
      ∧ shapeViolations c.rules .empty (.iri "http://ex.org/a") = .ok []
      ∧ ∃ d ∈ redeclared.declared c.iri, d.constraints.minCount = 1
        ∧ (redeclared.declaredRule d).violations .empty (.iri "http://ex.org/a") ≠ .ok [] := by
  have hfound : ∃ c ∈ redeclared.evaluate, c.iri = "http://ex.org/P"
      ∧ (c.properties.map PropertyModel.name).Nodup
      ∧ ∀ p ∈ c.properties, p.inherited = false := by
    decide +kernel
  rw [← resolve_eq_evaluate] at hfound
  obtain ⟨c, hc, hiri, hnames, hown⟩ := hfound
  have hfirst : ∀ d ∈ redeclared.declared "http://ex.org/P",
      redeclared.firstDeclared? "http://ex.org/P" d.path = some d →
        (redeclared.declaredRule d).violations .empty (.iri "http://ex.org/a") = .ok [] := by
    decide +kernel
  have hlost : ∃ d ∈ redeclared.declared "http://ex.org/P", d.constraints.minCount = 1
      ∧ (redeclared.declaredRule d).violations .empty (.iri "http://ex.org/a") ≠ .ok [] := by
    decide +kernel
  refine ⟨c, hc, hnames, ?_, hiri ▸ hlost⟩
  refine (no_violations_iff_firstDeclared hc hnames .empty (.iri "http://ex.org/a")).1.2 ⟨?_, ?_⟩
  · rw [hiri]
    exact hfirst
  · intro p hp hinherited
    simp [hown p hp] at hinherited

end

end Ontology

end ShapeForge
