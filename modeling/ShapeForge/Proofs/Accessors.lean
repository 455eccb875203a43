import ShapeForge.Platform.Standard
import ShapeForge.Proofs.Declarations
import ShapeForge.Session.Wrapping

/-!
# Accessors of valid nodes

Rules count all values of a predicate, whereas accessors read those of one kind: literals for a
literal property, IRIs and blank nodes for others (`TargetType.reads`). On a node without violations
an accessor has one item for each value of its kind (`Ontology.exists_items`), since what is
malformed would be a violation and every class can be wrapped. So a required value is read if the
values are of the kind, and only then.
-/

namespace ShapeForge

open Rdf (Graph Term)

/-- Whether accessors of a type read a term. -/
def TargetType.reads : TargetType → Term → Bool
  | .literal .. => Term.isLiteral
  | _ => Term.isResource

/-- What an accessor makes of the items that it has read. -/
def PropertyModel.gathered (p : PropertyModel) (items : List Reading) : Reading :=
  if p.isList then .list items else items.head?.getD .absent

theorem PropertyModel.gathered_eq_absent_iff {p : PropertyModel} (h : p.isList = false)
    {items : List Reading} (hitems : .absent ∉ items) :
    p.gathered items = .absent ↔ items = [] := by
  rw [gathered, if_neg (by simp [h])]
  rcases items with _ | ⟨r, rest⟩
  · simp
  · have hr : r ≠ .absent := fun he => hitems (he ▸ List.mem_cons_self)
    simp [hr]

/-! ## Wrapping -/

namespace Ontology

variable {o : Ontology} {c : ClassModel}

theorem wrappedModel?_eq {package : Package} (hclasses : package.classes = o.resolve.1)
    (hc : c ∈ o.resolve.1) : package.wrappedModel? c.wrapperClass = some c := by
  rw [Package.wrappedModel?, hclasses]
  refine find_of_inj hc fun d hd h => o.eq_of_className_eq hd hc ?_
  exact Model.wrapperName_injective h

theorem factory?_registryOf (hc : c ∈ o.resolve.1) :
    (Package.registryOf o.resolve.1).factory? c.className = some c.wrapperClass := by
  have hentries : ∀ (classes : List ClassModel) (r : Registry),
      (classes.foldl (fun r c => r.register c.className c.wrapperClass) r).entries
        = classes.foldl (fun entries c => Assoc.put c.className c.wrapperClass entries)
          r.entries := by
    intro classes
    induction classes with
    | nil => exact fun _ => rfl
    | cons d classes ih => exact fun r => ih (r.register d.className d.wrapperClass)
  rw [Registry.factory?, Package.registryOf, hentries, Assoc.get?_foldl_put,
    find_of_inj (List.mem_reverse.2 hc) fun d hd h =>
      o.eq_of_className_eq (List.mem_reverse.1 hd) hc h]
  rfl

theorem wrapClass_eq {s : Session} {choice : RegistryChoice}
    (hclasses : s.package.classes = o.resolve.1)
    (hregistry : choice.current s = Package.registryOf o.resolve.1) (hc : c ∈ o.resolve.1)
    (hwhole : s.package.missing c = []) (node : Term) :
    s.wrapClass choice c.className node = .ok (.object ⟨c.wrapperClass, node⟩ []) := by
  have hmodel : s.wrapperModel choice (.interface c) = .ok c := by
    rw [Session.wrapperModel]
    simp only [hregistry, factory?_registryOf hc, Option.bind_some, wrappedModel?_eq hclasses hc]
  rw [Session.wrapClass, hclasses, o.find_className hc]
  simp only [Session.wrapAs, hmodel, bind, Except.bind, Session.construct, hwhole,
    List.isEmpty_nil, if_true]
  rfl

end Ontology

/-! ## Reading -/

namespace Session

/-- The values of a property of a node. -/
def valuesAt (s : Session) (node : Term) (p : PropertyModel) : List Term :=
  s.scope.graph.objects node (.iri p.iri)

variable {s : Session} {choice : RegistryChoice} {node : Term} {p : PropertyModel}

theorem readProperty_literal {type : ScalarType} {datatype : Option String}
    (h : p.type = .literal type datatype) : s.readProperty choice node p = .ok (p.gathered
      ((s.scope.graph.literals node p.iri (.scalar type)).map Reading.scalar)) := by
  rw [readProperty, h]
  rfl

theorem readProperty_resource (h : p.type = .resource) : s.readProperty choice node p
    = .ok (p.gathered ((s.scope.graph.resources node p.iri).map Reading.node)) := by
  rw [readProperty, h]
  rfl

/-- A scalar accessor wraps the first node only, which is the one that it answers. -/
theorem readProperty_object {className moduleName : String} {wrapped : Term → Reading}
    (h : p.type = .object className moduleName)
    (hwrap : ∀ t, s.wrapClass choice className t = .ok (wrapped t)) :
    s.readProperty choice node p
      = .ok (p.gathered ((s.scope.graph.resources node p.iri).map wrapped)) := by
  unfold readProperty
  simp only [h]
  rw [mapM_ok_of_forall fun t _ => hwrap t]
  cases hlist : p.isList
  · rcases s.scope.graph.resources node p.iri with _ | ⟨t, rest⟩ <;>
      simp [PropertyModel.gathered, hlist, bind, Except.bind, pure, Except.pure]
  · simp [PropertyModel.gathered, hlist, bind, Except.bind, pure, Except.pure]

end Session

namespace Rdf.Graph

/-- If every literal can be read, none is left out. -/
theorem literals_eq_map {g : Graph} {node : Term} {predicate : String} {type : ScalarType}
    (h : ∀ l, .literal l ∈ g.objects node (.iri predicate) →
      ∃ value, type.read l.lexical = .ok value) :
    g.literals node predicate (.scalar type)
      = ((g.objects node (.iri predicate)).filter Term.isLiteral).map
        fun t => ((ValueType.scalar type).readTerm? t).getD (.integer 0) := by
  have hread : ∀ t ∈ g.objects node (.iri predicate), (ValueType.scalar type).readTerm? t
      = if t.isLiteral = true
        then some (((ValueType.scalar type).readTerm? t).getD (.integer 0)) else none := by
    intro t ht
    rcases t with iri | label | l
    · rfl
    · rfl
    · obtain ⟨value, hvalue⟩ := h l ht
      cases type <;>
        simp [ValueType.readTerm?, ValueType.read, Term.isLiteral, hvalue, Except.toOption]
  rw [literals, List.filterMap_congr hread, ← List.filterMap_filter]
  exact List.filterMap_eq_map_iff_forall_eq_some.2 fun _ _ => rfl

end Rdf.Graph

namespace Ontology

variable {o : Ontology} {c : ClassModel} {s : Session} {choice : RegistryChoice} {node : Term}
  {name : String} {p : PropertyModel}

/-- On a node without violations, an accessor has an item for each value of its kind. -/
theorem exists_items [Platform] (hc : c ∈ o.resolve.1) (hclasses : s.package.classes = o.resolve.1)
    (hregistry : choice.current s = Package.registryOf o.resolve.1)
    (hp : p ∈ c.properties)
    (hwhole : ∀ d ∈ o.resolve.1, (∃ m, p.type = .object d.className m) → s.package.missing d = [])
    (hvalid : p.rule.violations s.scope.graph node = .ok []) :
    ∃ item : Term → Reading, (∀ t, item t ≠ .absent) ∧ s.readProperty choice node p
      = .ok (p.gathered (((s.valuesAt node p).filter p.type.reads).map item)) := by
  rcases htype : p.type with ⟨type, datatype⟩ | ⟨className, moduleName⟩ | _
  · -- The rule reads every literal as the accessor does, and finds none malformed.
    have hsatisfied := Rule.violations_eq_nil_iff_satisfied.1 hvalid
    have hread : ∀ l, .literal l ∈ s.valuesAt node p →
        ∃ value, type.read l.lexical = .ok value := by
      intro l hl
      have hvalueType : p.rule.valueType = .scalar type := by
        rw [p.rule_valueType, htype]
        rfl
      obtain ⟨value, hvalue, -⟩ := (hsatisfied.literal l hl).typed type hvalueType
      exact ⟨value, hvalue⟩
    refine ⟨fun t => .scalar (((ValueType.scalar type).readTerm? t).getD (.integer 0)),
      by simp, ?_⟩
    rw [Session.readProperty_literal htype, Rdf.Graph.literals_eq_map hread, List.map_map]
    rfl
  · obtain ⟨-, -, -, -, d, hd, -, rfl, -⟩ := exists_class_of_object hc hp htype
    refine ⟨fun t => .object ⟨d.wrapperClass, t⟩ [], by simp, ?_⟩
    exact Session.readProperty_object htype
      (wrapClass_eq hclasses hregistry hd (hwhole d hd ⟨moduleName, htype⟩))
  · exact ⟨.node, by simp, Session.readProperty_resource htype⟩

/-- On a node without violations, an accessor reads every value of its kind: a list has an item for
each of them, and a scalar is absent only if there is none. So it reads the required values if all
values are of the kind. -/
theorem required_values_read [Platform] (hc : c ∈ o.resolve.1)
    (hclasses : s.package.classes = o.resolve.1)
    (hregistry : choice.current s = Package.registryOf o.resolve.1)
    (hvalid : shapeViolations c.rules s.scope.graph node = .ok [])
    (hp : c.property? name = some p)
    (hwhole : ∀ d ∈ o.resolve.1, (∃ m, p.type = .object d.className m) →
      s.package.missing d = []) :
    ∃ r, s.readMember choice ⟨c.wrapperClass, node⟩ name = .ok r
      ∧ (p.isList = true → ∃ items, r = .list items
        ∧ items.length = ((s.valuesAt node p).filter p.type.reads).length
        ∧ ((∀ t ∈ s.valuesAt node p, p.type.reads t = true) →
          p.constraints.minCount ≤ items.length))
      ∧ (p.isList = false →
        (r = .absent ↔ ∀ t ∈ s.valuesAt node p, p.type.reads t = false)
        ∧ (1 ≤ p.constraints.minCount →
          (∀ t ∈ s.valuesAt node p, p.type.reads t = true) → r ≠ .absent)) := by
  have hrule := shapeViolations_eq_nil_iff.1 hvalid _ (ClassModel.rule_mem_rules hp)
  have hcount : p.constraints.minCount ≤ (s.valuesAt node p).length :=
    (Rule.violations_eq_nil_iff_satisfied.1 hrule).minCount
  obtain ⟨item, hitem, hread⟩ :=
    exists_items hc hclasses hregistry (ClassModel.of_property? hp).1 hwhole hrule
  refine ⟨p.gathered (((s.valuesAt node p).filter p.type.reads).map item), ?_, fun hlist => ?_,
    fun hscalar => ?_⟩
  · rw [Session.readMember, wrappedModel?_eq hclasses hc]
    simp only [hp]
    rw [hread]
    rfl
  · refine ⟨_, by rw [PropertyModel.gathered, if_pos hlist], by simp, fun hkind => ?_⟩
    rwa [List.length_map, List.filter_eq_self.2 hkind]
  · have hitems : .absent ∉ ((s.valuesAt node p).filter p.type.reads).map item := by
      simpa using fun t _ _ => hitem t
    rw [PropertyModel.gathered_eq_absent_iff hscalar hitems, List.map_eq_nil_iff,
      List.filter_eq_nil_iff]
    refine ⟨by simp, fun hmin hkind habsent => ?_⟩
    rw [PropertyModel.gathered_eq_absent_iff hscalar hitems, List.filter_eq_self.2 hkind,
      List.map_eq_nil_iff] at habsent
    rw [habsent] at hcount
    exact absurd (hmin.trans hcount) (by decide)

/-- A class with a required name and a required friend of the class itself. -/
def befriended : Ontology where
  shapes :=
    [⟨"s", "http://ex.org/P",
      [{ path := "http://ex.org/name", name := "name", datatype := some (Rdf.xsd "string")
         constraints := { minCount := 1, maxCount := some 1 } },
       { path := "http://ex.org/friend", name := "friend"
         targetClass := some "http://ex.org/P"
         constraints := { minCount := 1, maxCount := some 1 } }]⟩]
  classes := [⟨"http://ex.org/P", "P", []⟩]

/-- A new session over the graph in which the name and the friend of a node are IRIs. -/
def befriendedSession (classes : List ClassModel) : Session :=
  { Session.start ⟨{ dslName := "d", packageName := "p" }, classes⟩ with
    scope := { graph :=
      { triples :=
        [⟨.iri "http://ex.org/a", .iri "http://ex.org/name", .iri "http://ex.org/b"⟩,
         ⟨.iri "http://ex.org/a", .iri "http://ex.org/friend", .iri "http://ex.org/b"⟩] } } }

section

attribute [local instance] Platform.standard

/-- The rules accept the IRI as a name, and the accessor reads no name. -/
theorem befriended_name_absent : ∃ c ∈ befriended.resolve.1, ∃ p, c.property? "name" = some p
    ∧ p.isList = false ∧ 1 ≤ p.constraints.minCount
    ∧ shapeViolations c.rules (befriendedSession befriended.resolve.1).scope.graph
      (.iri "http://ex.org/a") = .ok []
    ∧ (befriendedSession befriended.resolve.1).readMember .common
      ⟨c.wrapperClass, .iri "http://ex.org/a"⟩ "name" = .ok .absent := by
  have hfound : ∃ c ∈ befriended.evaluate, ∃ p ∈ c.properties, c.property? "name" = some p
      ∧ p.type = .literal .text (some (Rdf.xsd "string"))
      ∧ p.isList = false ∧ 1 ≤ p.constraints.minCount
      ∧ shapeViolations c.rules (befriendedSession befriended.evaluate).scope.graph
        (.iri "http://ex.org/a") = .ok []
      ∧ (befriendedSession befriended.evaluate).scope.graph.literals (.iri "http://ex.org/a") p.iri
        (.scalar .text) = [] := by
    decide +kernel
  rw [← resolve_eq_evaluate] at hfound
  obtain ⟨c, hc, p, -, hp, htype, hscalar, hmin, hvalid, hliterals⟩ := hfound
  refine ⟨c, hc, p, hp, hscalar, hmin, hvalid, ?_⟩
  rw [Session.readMember, wrappedModel?_eq rfl hc]
  simp only [hp]
  rw [Session.readProperty_literal htype, hliterals, PropertyModel.gathered,
    if_neg (by simp [hscalar])]
  rfl

/-- The friend is an IRI as well, and is read. -/
theorem befriended_friend_read : ∃ c ∈ befriended.resolve.1, ∃ p, c.property? "friend" = some p
    ∧ p.isList = false ∧ 1 ≤ p.constraints.minCount
    ∧ shapeViolations c.rules (befriendedSession befriended.resolve.1).scope.graph
      (.iri "http://ex.org/a") = .ok []
    ∧ ∃ r, (befriendedSession befriended.resolve.1).readMember .common
        ⟨c.wrapperClass, .iri "http://ex.org/a"⟩ "friend" = .ok r
      ∧ r ≠ .absent := by
  have hfound : ∃ c ∈ befriended.evaluate, ∃ p ∈ c.properties, c.property? "friend" = some p
      ∧ p.isList = false ∧ 1 ≤ p.constraints.minCount
      ∧ shapeViolations c.rules (befriendedSession befriended.evaluate).scope.graph
        (.iri "http://ex.org/a") = .ok []
      ∧ (∀ t ∈ (befriendedSession befriended.evaluate).valuesAt (.iri "http://ex.org/a") p,
        p.type.reads t = true)
      ∧ ∀ d ∈ befriended.evaluate,
        (befriendedSession befriended.evaluate).package.missing d = [] := by
    decide +kernel
  rw [← resolve_eq_evaluate] at hfound
  obtain ⟨c, hc, p, -, hp, hscalar, hmin, hvalid, hkind, hwhole⟩ := hfound
  have hregistry : RegistryChoice.current (befriendedSession befriended.resolve.1) .common
      = Package.registryOf befriended.resolve.1 := rfl
  obtain ⟨r, hread, -, hr⟩ :=
    required_values_read hc rfl hregistry hvalid hp fun d hd _ => hwhole d hd
  exact ⟨c, hc, p, hp, hscalar, hmin, hvalid, r, hread, (hr hscalar).2 hmin hkind⟩

end

end Ontology

end ShapeForge
