import ShapeForge.Proofs.Hierarchy

/-!
# Predicates of a class

The own shapes of a class turn what it inherits into two parts (`Members.Split`): one own property
for each path that they declare, and of the inherited properties those with other predicates. So a
property is inherited exactly if no own shape declares it (`classModel_split`).

In a hierarchy without circles every class has just the paths that are declared for it or for a
class above it (`Ontology.mem_property_iris_iff`), by induction along the recorded super classes.
-/

namespace ShapeForge

/-- The properties that the shapes of a class declare. -/
def Ontology.declared (o : Ontology) (iri : String) : List PropertyShape :=
  (o.shapesFor iri).flatMap NodeShape.properties

namespace Model

theorem inherited_of_mem_inherited {supers : List ClassModel} {p : PropertyModel}
    (hp : p ∈ inherited supers) : p.inherited = true := by
  have hfind := find_inherited supers p.iri
  rw [find_of_nodup_map (inherited_iris_nodup supers) hp] at hfind
  obtain ⟨q, -, rfl⟩ := Option.map_eq_some_iff.1 hfind.symm
  rfl

theorem mem_inherited_iris {supers : List ClassModel} {iri : String} :
    iri ∈ (inherited supers).map PropertyModel.iri ↔
      ∃ s ∈ supers, iri ∈ s.properties.map PropertyModel.iri := by
  have hfind := find_inherited supers iri
  constructor
  · intro h
    obtain ⟨p, hp, rfl⟩ := List.mem_map.1 h
    rw [find_of_nodup_map (inherited_iris_nodup supers) hp] at hfind
    obtain ⟨q, hq, -⟩ := Option.map_eq_some_iff.1 hfind.symm
    obtain ⟨hmem, hiri⟩ := mem_of_find_iri hq
    obtain ⟨s, hs, hqs⟩ := List.mem_flatMap.1 hmem
    exact ⟨s, hs, List.mem_map.2 ⟨q, hqs, hiri⟩⟩
  · rintro ⟨s, hs, h⟩
    obtain ⟨p, hp, rfl⟩ := List.mem_map.1 h
    have hmem : p ∈ supers.flatMap ClassModel.properties := List.mem_flatMap.2 ⟨s, hs, hp⟩
    rcases hq : (supers.flatMap ClassModel.properties).find? (·.iri == p.iri) with _ | q
    · exact absurd (List.find?_eq_none.1 hq p hmem) (by simp)
    · rw [hq, Option.map_some] at hfind
      obtain ⟨hmem', hiri⟩ := mem_of_find_iri hfind
      exact List.mem_map.2 ⟨_, hmem', hiri⟩

namespace Members

/-- The own properties are those of the declared paths, and the inherited ones are those of the
start that have other predicates. -/
structure Split (start : List PropertyModel) (declared : List PropertyShape) (m : Members) :
    Prop where
  own_iris : ∀ iri, iri ∈ m.own.map PropertyModel.iri ↔ iri ∈ declared.map PropertyShape.path
  own : ∀ p ∈ m.own, p.inherited = false
  inherited : m.inherited = start.filter fun p => p.iri ∉ declared.map PropertyShape.path

theorem split_start (start : List PropertyModel) (names : Naming.Allocator) :
    Split start [] { inherited := start, names } :=
  ⟨by simp, by simp, by simp⟩

variable (o : Ontology) (names : List (String × ClassNames)) {m : Members}
  {start : List PropertyModel} {declared : List PropertyShape}

/-- One own property more, with a new path. -/
theorem Split.concat {m' : Members} {p : PropertyShape} {q : PropertyModel}
    (h : m.Split start declared) (hown : m'.own = m.own ++ [q]) (hq : q.iri = p.path)
    (hflag : q.inherited = false)
    (hinherited : m'.inherited = m.inherited.filter fun r => r.iri ≠ p.path) :
    m'.Split start (declared ++ [p]) where
  own_iris := by
    intro iri
    rw [hown, List.map_append, List.map_append, List.mem_append, List.mem_append, h.own_iris,
      List.map_singleton, List.map_singleton, hq]
  own := by
    intro r hr
    rw [hown, List.mem_append, List.mem_singleton] at hr
    rcases hr with hr | rfl
    · exact h.own r hr
    · exact hflag
  inherited := by
    rw [hinherited, h.inherited, List.filter_filter]
    refine List.filter_congr fun r _ => ?_
    rw [List.map_append, List.map_singleton]
    simp only [List.mem_append, List.mem_singleton, not_or, Bool.decide_and, Bool.and_comm]

theorem Split.add (hstart : (start.map PropertyModel.iri).Nodup) (h : m.Split start declared)
    (p : PropertyShape) : (m.add o names p).Split start (declared ++ [p]) := by
  have hnodup : (m.inherited.map PropertyModel.iri).Nodup := by
    rw [h.inherited]
    exact hstart.sublist (List.filter_sublist.map _)
  unfold Members.add
  split_ifs with hown
  · -- The path was declared before, so nothing is new.
    obtain ⟨q, hq, hiri⟩ := List.any_eq_true.1 hown
    have hmem : p.path ∈ declared.map PropertyShape.path := by
      rw [← h.own_iris]
      exact List.mem_map.2 ⟨q, hq, by simpa using hiri⟩
    have hsame : ∀ iri, iri ∈ (declared ++ [p]).map PropertyShape.path ↔
        iri ∈ declared.map PropertyShape.path := by
      intro iri
      rw [List.map_append, List.mem_append, List.map_singleton, List.mem_singleton]
      exact ⟨fun hi => hi.elim id fun he => he ▸ hmem, .inl⟩
    refine ⟨fun iri => (h.own_iris iri).trans (hsame iri).symm, h.own, ?_⟩
    simp only [hsame]
    exact h.inherited
  · rcases hf : m.inherited.find? (·.iri == p.path) with _ | q
    · have hsame : m.inherited = m.inherited.filter fun r => r.iri ≠ p.path :=
        (List.filter_eq_self.2 fun r hr => by simpa using List.find?_eq_none.1 hf r hr).symm
      simp only [hf]
      exact h.concat rfl rfl rfl hsame
    · obtain ⟨hq, hiri⟩ := mem_of_find_iri hf
      simp only [hf]
      refine h.concat rfl rfl rfl ?_
      rw [hnodup.of_map.erase_eq_filter]
      refine List.filter_congr fun r hr => ?_
      have hiff : r = q ↔ r.iri = p.path := by
        rw [← hiri]
        exact ⟨congrArg _, List.inj_on_of_nodup_map hnodup hr hq⟩
      rw [Bool.eq_iff_iff, bne_iff_ne, decide_eq_true_iff, ne_eq, ne_eq, hiff]

theorem Split.foldl_add (hstart : (start.map PropertyModel.iri).Nodup) :
    ∀ (ps : List PropertyShape) {declared : List PropertyShape} {m : Members},
      m.Split start declared →
        (ps.foldl (Members.add o names) m).Split start (declared ++ ps)
  | [], declared, m, h => by rwa [List.append_nil]
  | p :: ps, declared, m, h => by
    rw [List.foldl_cons, List.append_cons]
    exact Split.foldl_add hstart ps (h.add o names hstart p)

end Members

/-- The properties of a class are split by what its own shapes declare. -/
theorem classModel_split (o : Ontology) (names : List (String × ClassNames)) (iri : String)
    (supers : List ClassModel) :
    ∃ m : Members, m.Split (inherited supers) (o.declared iri)
      ∧ (classModel o names iri supers).1.properties = m.own ++ m.inherited := by
  have hstart := Members.split_start (inherited supers)
  exact ⟨_, (hstart _).foldl_add o names (inherited_iris_nodup supers) (o.declared iri), rfl⟩

end Model

namespace Ontology

/-- A shape of the class has the path. -/
def Declares (o : Ontology) (iri path : String) : Prop :=
  ∃ shape ∈ o.shapes, shape.targetClass = iri ∧ ∃ p ∈ shape.properties, p.path = path

variable {o : Ontology} {c : ClassModel}

theorem mem_paths_iff {iri path : String} :
    path ∈ (o.declared iri).map PropertyShape.path ↔ o.Declares iri path := by
  simp only [declared, shapesFor, Declares, List.mem_map, List.mem_flatMap, List.mem_filter,
    beq_iff_eq]
  constructor
  · rintro ⟨p, ⟨shape, ⟨hs, ht⟩, hp⟩, rfl⟩
    exact ⟨shape, hs, ht, p, hp, rfl⟩
  · rintro ⟨shape, hs, ht, p, hp, rfl⟩
    exact ⟨p, ⟨shape, ⟨hs, ht⟩, hp⟩, rfl⟩

theorem properties_split (hc : c ∈ o.resolve.1) :
    ∃ m : Model.Members,
      m.Split (Model.inherited (superModels o.resolve.1 c)) (o.declared c.iri)
        ∧ c.properties = m.own ++ m.inherited := by
  have h := Model.classModel_split o o.classNames c.iri (superModels o.resolve.1 c)
  rwa [← (o.eq_classModel_of_mem_resolve hc).1] at h

/-- A class has the paths that are declared for it and the predicates of its super classes. -/
theorem mem_property_iris_step (hc : c ∈ o.resolve.1) {iri : String} :
    iri ∈ c.properties.map PropertyModel.iri ↔
      o.Declares c.iri iri
        ∨ ∃ s ∈ superModels o.resolve.1 c, iri ∈ s.properties.map PropertyModel.iri := by
  obtain ⟨m, hsplit, heq⟩ := properties_split hc
  rw [heq, List.map_append, List.mem_append, hsplit.own_iris, mem_paths_iff,
    ← Model.mem_inherited_iris, hsplit.inherited]
  refine or_congr_right' fun hnot => ?_
  refine ⟨fun h => (List.filter_sublist.map _).subset h, fun h => ?_⟩
  obtain ⟨p, hp, rfl⟩ := List.mem_map.1 h
  refine List.mem_map.2 ⟨p, List.mem_filter.2 ⟨hp, ?_⟩, rfl⟩
  rw [decide_eq_true_eq, mem_paths_iff]
  exact hnot

theorem exists_own_then_inherited (hc : c ∈ o.resolve.1) :
    ∃ own rest : List PropertyModel, c.properties = own ++ rest
      ∧ (∀ p ∈ own, p.inherited = false ∧ o.Declares c.iri p.iri)
      ∧ (∀ p ∈ rest, p.inherited = true ∧ ¬ o.Declares c.iri p.iri) := by
  obtain ⟨m, hsplit, heq⟩ := properties_split hc
  refine ⟨m.own, m.inherited, heq, fun p hp => ⟨hsplit.own p hp, ?_⟩, fun p hp => ?_⟩
  · exact mem_paths_iff.1 ((hsplit.own_iris p.iri).1 (List.mem_map_of_mem hp))
  · rw [hsplit.inherited] at hp
    obtain ⟨hmem, hnot⟩ := List.mem_filter.1 hp
    rw [decide_eq_true_eq, mem_paths_iff] at hnot
    exact ⟨Model.inherited_of_mem_inherited hmem, hnot⟩

/-- Without circles, a class has the paths that are declared for it or for a class above it. -/
theorem mem_property_iris_iff (hunique : (o.classes.map DeclaredClass.iri).Nodup)
    (h : o.Acyclic) : ∀ c ∈ o.resolve.1, ∀ iri, iri ∈ c.properties.map PropertyModel.iri ↔
      ∃ d, Relation.ReflTransGen o.SubClassOf c.iri d ∧ o.Declares d iri := by
  refine o.resolve_induction fun c hc ih iri => ?_
  rw [mem_property_iris_step hc]
  constructor
  · rintro (hd | ⟨s, hs, hmem⟩)
    · exact ⟨c.iri, .refl, hd⟩
    · obtain ⟨d, hreach, hd⟩ := (ih s hs iri).1 hmem
      exact ⟨d, .head (subClassOf_of_up (up_of_mem_superModels hc hs)) hreach, hd⟩
  · rintro ⟨d, hreach, hd⟩
    -- The first step up leads to a class that is recorded.
    rcases Relation.ReflTransGen.cases_head hreach with rfl | ⟨x, hx, hreach⟩
    · exact .inl hd
    · obtain ⟨s, hs, rfl⟩ := exists_super_of_subClassOf hunique h hc hx
      exact .inr ⟨s, hs, (ih s hs iri).2 ⟨d, hreach, hd⟩⟩

/-- In a hierarchy without circles, a class has one property for each path that is declared for it
or for a class above it. The inherited ones are those that no shape of the class itself declares,
and they come last. -/
theorem properties_of_hierarchy (hunique : (o.classes.map DeclaredClass.iri).Nodup)
    (h : o.Acyclic) (hc : c ∈ o.resolve.1) :
    (c.properties.map PropertyModel.iri).Nodup
      ∧ (∀ iri, iri ∈ c.properties.map PropertyModel.iri ↔
          ∃ d, Relation.ReflTransGen o.SubClassOf c.iri d ∧ o.Declares d iri)
      ∧ (∀ p ∈ c.properties, p.inherited = true ↔ ¬ o.Declares c.iri p.iri)
      ∧ c.properties.Pairwise fun p q => p.inherited = true → q.inherited = true := by
  obtain ⟨own, rest, heq, hown, hrest⟩ := exists_own_then_inherited hc
  refine ⟨property_iris_nodup hc, mem_property_iris_iff hunique h c hc, fun p hp => ?_, ?_⟩
  · rw [heq, List.mem_append] at hp
    rcases hp with hp | hp
    · simp [hown p hp]
    · simp [hrest p hp]
  · rw [heq, List.pairwise_append]
    refine ⟨?_, ?_, fun p _ q hq _ => (hrest q hq).1⟩
    · exact List.pairwise_of_forall_mem_list fun p hp _ _ hflag => by simp [hown p hp] at hflag
    · exact List.pairwise_of_forall_mem_list fun _ _ q hq _ => (hrest q hq).1

/-- The class at the bottom has each path once: the two that it declares, and that of the top. -/
theorem diamond_properties : (diamond.classes.map DeclaredClass.iri).Nodup ∧ diamond.Acyclic
    ∧ ∃ c ∈ diamond.resolve.1, c.iri = "http://ex.org/D"
      ∧ c.properties.map (fun p => (p.iri, p.inherited))
        = [("http://ex.org/r", false), ("http://ex.org/q", false), ("http://ex.org/p", true)]
      ∧ ∃ d, Relation.ReflTransGen diamond.SubClassOf c.iri d
        ∧ diamond.Declares d "http://ex.org/p" := by
  have hnodup : (diamond.classes.map DeclaredClass.iri).Nodup := by decide
  have hfound : ∃ c ∈ diamond.evaluate, c.iri = "http://ex.org/D"
      ∧ c.properties.map (fun p => (p.iri, p.inherited))
        = [("http://ex.org/r", false), ("http://ex.org/q", false), ("http://ex.org/p", true)] := by
    decide +kernel
  rw [← resolve_eq_evaluate] at hfound
  obtain ⟨c, hc, hiri, hprops⟩ := hfound
  obtain ⟨-, hmem, -, -⟩ := properties_of_hierarchy hnodup diamond_acyclic hc
  have hp : "http://ex.org/p" ∈ c.properties.map PropertyModel.iri := by
    have hiris := congrArg (List.map Prod.fst) hprops
    rw [List.map_map] at hiris
    rw [show PropertyModel.iri = Prod.fst ∘ fun p : PropertyModel => (p.iri, p.inherited) from rfl,
      hiris]
    decide
  exact ⟨hnodup, diamond_acyclic, c, hc, hiri, hprops, (hmem _).1 hp⟩

end Ontology

end ShapeForge
