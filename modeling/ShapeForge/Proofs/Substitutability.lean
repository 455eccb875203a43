import ShapeForge.Platform.Standard
import ShapeForge.Proofs.Declarations
import ShapeForge.Proofs.Objects

/-!
# Valid nodes of a subclass

A class inherits a predicate from the first of its super classes that has it (`Model.provider?`),
and what the other super classes ask of the predicate is not checked. So a node that is valid for
the class is valid for a super class, as far as the class does not declare the predicate itself,
exactly if the constraints of the first super class imply those of this one
(`Ontology.kept_iff_implied`).

They do if the predicate is declared by one class only, also where several super classes inherit it
from there, and if there is one super class only.
-/

namespace ShapeForge

open Rdf (Graph Term)

/-- The property that a class inherits for a predicate: that of the first super class with it. -/
def Model.provider? (supers : List ClassModel) (iri : String) : Option PropertyModel :=
  (supers.flatMap ClassModel.properties).find? (·.iri == iri)

theorem PropertyModel.violations_eq_nil_congr [Platform] {p q : PropertyModel}
    (hiri : p.iri = q.iri) (htype : p.type = q.type) (hconstraints : p.constraints = q.constraints)
    {g : Graph} {node : Term} :
    p.rule.violations g node = .ok [] ↔ q.rule.violations g node = .ok [] := by
  rw [Rule.violations_eq_nil_iff_satisfied, Rule.violations_eq_nil_iff_satisfied,
    p.rule_valueType, q.rule_valueType, htype, show p.rule.constraints = q.rule.constraints from
      hconstraints, show p.rule.predicate = q.rule.predicate from congrArg Term.iri hiri]

/-- A rule looks at nothing but the values of its predicate. -/
theorem Rule.violations_eq_nil_of_objects [Platform] {r : Rule} {g h : Graph} {node other : Term}
    (heq : h.objects other r.predicate = g.objects node r.predicate)
    (hnil : r.violations g node = .ok []) : r.violations h other = .ok [] := by
  rw [Rule.violations_eq_nil_iff_satisfied] at hnil ⊢
  rwa [heq]

namespace Rdf.Graph

variable {g : Graph} {node : Term} {path : String} {values : List Term}
  (hvalues : values.Pairwise fun a b => a.same b = false)

/-- The graph with other values for one predicate of a node. -/
def withObjects (g : Graph) (node : Term) (path : String) (values : List Term)
    (hvalues : values.Pairwise fun a b => a.same b = false) : Graph where
  triples := g.triples.filter (fun t => !t.about node (.iri path))
    ++ values.map fun v => ⟨node, .iri path, v⟩
  distinct := by
    refine List.pairwise_append.2 ⟨g.distinct.filter _, List.pairwise_map.2 ?_, fun t ht u hu => ?_⟩
    · refine hvalues.imp fun hdiffer => ?_
      rw [Triple.same, hdiffer, Bool.and_false]
    · -- The old triples are not about the predicate, and the new ones are.
      obtain ⟨v, -, rfl⟩ := List.mem_map.1 hu
      refine Bool.eq_false_iff.2 fun hsame => ?_
      have hold := (List.mem_filter.1 ht).2
      rw [Triple.about_congr hsame] at hold
      simp [Triple.about, Term.same_refl] at hold

theorem objects_withObjects_self :
    (g.withObjects node path values hvalues).objects node (.iri path) = values := by
  have hold : (g.triples.filter fun t => !t.about node (.iri path)).filter
      (Triple.about node (.iri path)) = [] := by
    rw [List.filter_filter, List.filter_eq_nil_iff]
    simp
  have hnew : (values.map fun v => (⟨node, .iri path, v⟩ : Triple)).filter
      (Triple.about node (.iri path)) = values.map fun v => ⟨node, .iri path, v⟩ := by
    rw [List.filter_eq_self, List.forall_mem_map]
    simp [Triple.about, Term.same_refl]
  rw [objects_eq, withObjects, List.filter_append, hold, hnew, List.nil_append, List.map_map]
  exact List.map_id values

theorem objects_withObjects_of_ne {other : String} (h : other ≠ path) :
    (g.withObjects node path values hvalues).objects node (.iri other)
      = g.objects node (.iri other) := by
  have hold : (g.triples.filter fun t => !t.about node (.iri path)).filter
      (Triple.about node (.iri other)) = g.triples.filter (Triple.about node (.iri other)) := by
    rw [List.filter_filter]
    refine List.filter_congr fun t _ => ?_
    rcases ht : t.about node (.iri other) with _ | _
    · rfl
    · -- A triple about the one predicate is not about the other.
      have hpath : t.about node (.iri path) = false := by
        rw [Triple.about, Bool.and_eq_true] at ht
        rw [Triple.about, Term.same_congr ht.2, Bool.and_eq_false_iff]
        exact .inr (Bool.eq_false_iff.2 fun he => h (Term.iri_same_iri.1 he))
      rw [hpath]
      rfl
  have hnew : (values.map fun v => (⟨node, .iri path, v⟩ : Triple)).filter
      (Triple.about node (.iri other)) = [] := by
    rw [List.filter_eq_nil_iff, List.forall_mem_map]
    intro v _ hv
    rw [Triple.about, Bool.and_eq_true] at hv
    exact h (Term.iri_same_iri.1 hv.2).symm
  rw [objects_eq, withObjects, List.filter_append, hold, hnew, List.append_nil, objects_eq]

end Rdf.Graph

namespace Ontology

variable {o : Ontology} {c s : ClassModel} {q r : PropertyModel}

theorem exists_provider? (hs : s ∈ superModels o.resolve.1 c) (hq : q ∈ s.properties) :
    ∃ r, Model.provider? (superModels o.resolve.1 c) q.iri = some r := by
  rw [← Option.isSome_iff_exists, Model.provider?, List.find?_isSome]
  exact ⟨q, List.mem_flatMap.2 ⟨s, hs, hq⟩, by simp⟩

/-- What the first super class has is inherited, unless the class declares the predicate itself. -/
theorem mem_properties_of_provider (hc : c ∈ o.resolve.1) {iri : String}
    (hnot : ¬ o.Declares c.iri iri)
    (hr : Model.provider? (superModels o.resolve.1 c) iri = some r) :
    r.asInherited ∈ c.properties := by
  obtain ⟨m, hsplit, heq⟩ := properties_split hc
  have hfind := Model.find_inherited (superModels o.resolve.1 c) iri
  rw [Model.provider?] at hr
  rw [hr, Option.map_some] at hfind
  obtain ⟨hmem, hiri⟩ := mem_of_find_iri hfind
  rw [heq, hsplit.inherited]
  refine List.mem_append_right _ (List.mem_filter.2 ⟨hmem, ?_⟩)
  rw [hiri, decide_eq_true_eq, mem_paths_iff]
  exact hnot

theorem no_violations_iff_properties [Platform]
    (hnames : (c.properties.map PropertyModel.name).Nodup) {g : Graph} {node : Term} :
    shapeViolations c.rules g node = .ok [] ↔
      ∀ p ∈ c.properties, p.rule.violations g node = .ok [] := by
  rw [shapeViolations_eq_nil_iff, ClassModel.rules_eq_iff.2 hnames, List.forall_mem_map]

theorem provider_violations_eq_nil [Platform] (hc : c ∈ o.resolve.1)
    (hnames : (c.properties.map PropertyModel.name).Nodup) {iri : String}
    (hnot : ¬ o.Declares c.iri iri)
    (hr : Model.provider? (superModels o.resolve.1 c) iri = some r) {g : Graph} {node : Term}
    (h : shapeViolations c.rules g node = .ok []) : r.rule.violations g node = .ok [] :=
  (no_violations_iff_properties hnames).1 h r.asInherited (mem_properties_of_provider hc hnot hr)

/-- A valid node stays valid if the values of one predicate are replaced by other ones that its
rule admits. -/
theorem no_violations_withObjects [Platform] (hc : c ∈ o.resolve.1)
    (hnames : (c.properties.map PropertyModel.name).Nodup) {p : PropertyModel}
    (hp : p ∈ c.properties) {g h : Graph} {node other : Term}
    (hvalid : shapeViolations c.rules g node = .ok [])
    (hnil : p.rule.violations h other = .ok []) :
    shapeViolations c.rules
      (g.withObjects node p.iri (h.objects other (.iri p.iri)) (h.objects_distinct _ _)) node
        = .ok [] := by
  rw [no_violations_iff_properties hnames] at hvalid ⊢
  intro p' hp'
  by_cases hiri : p'.iri = p.iri
  · obtain rfl := List.inj_on_of_nodup_map (property_iris_nodup hc) hp' hp hiri
    exact Rule.violations_eq_nil_of_objects (Rdf.Graph.objects_withObjects_self _) hnil
  · exact Rule.violations_eq_nil_of_objects (Rdf.Graph.objects_withObjects_of_ne _ hiri)
      (hvalid p' hp')

/-- What a super class asks of a predicate is kept exactly if it is implied by what the first super
class with the predicate asks, or if no node is valid at all. -/
theorem kept_iff_implied [Platform] (hc : c ∈ o.resolve.1)
    (hnames : (c.properties.map PropertyModel.name).Nodup) (hnot : ¬ o.Declares c.iri q.iri)
    (hr : Model.provider? (superModels o.resolve.1 c) q.iri = some r) :
    (∀ g node, shapeViolations c.rules g node = .ok [] → q.rule.violations g node = .ok []) ↔
      (∀ g node, shapeViolations c.rules g node ≠ .ok [])
        ∨ ∀ g node, r.rule.violations g node = .ok [] → q.rule.violations g node = .ok [] := by
  constructor
  · intro hkept
    by_contra hnone
    push Not at hnone
    obtain ⟨⟨g, node, hvalid⟩, h, other, hfirst, hfails⟩ := hnone
    -- The valid node gets the values that the first super class admits and this one refuses.
    have hriri : r.iri = q.iri := (mem_of_find_iri hr).2
    have hcopy : r.asInherited.rule.violations h other = .ok [] := hfirst
    have hvalid' := no_violations_withObjects hc hnames (mem_properties_of_provider hc hnot hr)
      hvalid hcopy
    refine hfails (Rule.violations_eq_nil_of_objects ?_ (hkept _ node hvalid'))
    change h.objects other (.iri q.iri)
      = (g.withObjects node r.iri (h.objects other (.iri r.iri)) _).objects node (.iri q.iri)
    rw [← hriri]
    exact (Rdf.Graph.objects_withObjects_self _).symm
  · rintro (hnever | himplied) g node hvalid
    · exact absurd hvalid (hnever g node)
    · exact himplied g node (provider_violations_eq_nil hc hnames hnot hr hvalid)

/-- A predicate that only one class above declares is the same for all super classes. -/
theorem agree_of_declared_once (hc : c ∈ o.resolve.1) (hs : s ∈ superModels o.resolve.1 c)
    (hq : q ∈ s.properties)
    (honce : ∀ d e, Ancestor o.resolve.1 c d → Ancestor o.resolve.1 c e →
      o.Declares d.iri q.iri → o.Declares e.iri q.iri → d = e)
    (hr : Model.provider? (superModels o.resolve.1 c) q.iri = some r) :
    r.iri = q.iri ∧ r.type = q.type ∧ r.constraints = q.constraints := by
  -- Both go back to the first declaration of the path for a class above.
  have hback {t : ClassModel} (ht : t ∈ superModels o.resolve.1 c) {p : PropertyModel}
      (hp : p ∈ t.properties) : ∃ e, Ancestor o.resolve.1 c e
        ∧ ∃ d, o.firstDeclared? e.iri p.iri = some d ∧ p.Models o.context o.classNames d := by
    obtain ⟨e, he, hd⟩ := exists_declaration t (o.mem_resolve_of_mem_superModels hc ht) p hp
    refine ⟨e, ?_, hd⟩
    rcases he with rfl | he
    · exact .single ht
    · exact .head ht he
  have hdeclares {e : ClassModel} {d : PropertyShape} {iri : String}
      (hd : o.firstDeclared? e.iri iri = some d) : o.Declares e.iri iri := by
    obtain ⟨hmem, rfl⟩ := firstDeclared?_eq_some hd
    exact mem_paths_iff.1 (List.mem_map_of_mem hmem)
  obtain ⟨hmem, hriri⟩ := mem_of_find_iri hr
  obtain ⟨t, ht, hrt⟩ := List.mem_flatMap.1 hmem
  obtain ⟨e, he, d, hd, hqd⟩ := hback hs hq
  obtain ⟨e', he', d', hd', hrd⟩ := hback ht hrt
  rw [hriri] at hd'
  obtain rfl := honce e e' he he' (hdeclares hd) (hdeclares hd')
  obtain rfl := Option.some.inj (hd.symm.trans hd')
  exact ⟨hriri, hrd.type.trans hqd.type.symm, hrd.constraints.trans hqd.constraints.symm⟩

theorem SingleInheritance.provider?_eq (h : o.SingleInheritance) (hc : c ∈ o.resolve.1)
    (hs : s ∈ superModels o.resolve.1 c) (hq : q ∈ s.properties)
    (hr : Model.provider? (superModels o.resolve.1 c) q.iri = some r) : r = q := by
  obtain ⟨hmem, hiri⟩ := mem_of_find_iri hr
  obtain ⟨t, ht, hrt⟩ := List.mem_flatMap.1 hmem
  rw [h.eq_of_mem_superModels hc ht hs] at hrt
  have hs' := o.mem_resolve_of_mem_superModels hc hs
  exact List.inj_on_of_nodup_map (property_iris_nodup hs') hrt hq hiri

/-- For a predicate that a class does not declare itself, a node that is valid for the class is
valid for a super class exactly if the first super class with the predicate asks for no less. This
is so if one class above declares the predicate, and always with single inheritance. -/
theorem substitutable_iff [Platform] (hc : c ∈ o.resolve.1) (hs : s ∈ superModels o.resolve.1 c)
    (hq : q ∈ s.properties) (hnot : ¬ o.Declares c.iri q.iri) :
    ∃ r, Model.provider? (superModels o.resolve.1 c) q.iri = some r
      ∧ ((c.properties.map PropertyModel.name).Nodup →
        ((∀ g node, shapeViolations c.rules g node = .ok [] → q.rule.violations g node = .ok []) ↔
          (∀ g node, shapeViolations c.rules g node ≠ .ok [])
            ∨ ∀ g node, r.rule.violations g node = .ok [] → q.rule.violations g node = .ok [])
        ∧ ((∀ d e, Ancestor o.resolve.1 c d → Ancestor o.resolve.1 c e →
            o.Declares d.iri q.iri → o.Declares e.iri q.iri → d = e) →
          ∀ g node, shapeViolations c.rules g node = .ok [] → q.rule.violations g node = .ok []))
      ∧ (o.SingleInheritance →
        ∀ g node, shapeViolations c.rules g node = .ok [] → q.rule.violations g node = .ok []) := by
  obtain ⟨r, hr⟩ := exists_provider? hs hq
  refine ⟨r, hr, fun hnames => ⟨kept_iff_implied hc hnames hnot hr, ?_⟩, ?_⟩
  · intro honce
    obtain ⟨hiri, htype, hconstraints⟩ := agree_of_declared_once hc hs hq honce hr
    refine (kept_iff_implied hc hnames hnot hr).2 (.inr fun g node h => ?_)
    exact (PropertyModel.violations_eq_nil_congr hiri htype hconstraints).1 h
  · intro hsingle
    obtain rfl := hsingle.provider?_eq hc hs hq hr
    exact (kept_iff_implied hc (hsingle.names_nodup c hc) hnot hr).2 (.inr fun _ _ h => h)

/-- A class below two others, of which the second requires a value that their common super class
does not require. -/
def overridden : Ontology where
  shapes :=
    [⟨"g", "http://ex.org/G", [{ path := "http://ex.org/p", name := "p" }]⟩,
     ⟨"a", "http://ex.org/A", []⟩,
     ⟨"b", "http://ex.org/B",
      [{ path := "http://ex.org/p", name := "p", constraints := { minCount := 1 } }]⟩,
     ⟨"c", "http://ex.org/C", []⟩]
  classes :=
    [⟨"http://ex.org/G", "G", []⟩, ⟨"http://ex.org/A", "A", ["http://ex.org/G"]⟩,
     ⟨"http://ex.org/B", "B", ["http://ex.org/G"]⟩,
     ⟨"http://ex.org/C", "C", ["http://ex.org/A", "http://ex.org/B"]⟩]

section

attribute [local instance] Platform.standard

/-- The class at the bottom inherits what the farther class says, so it has valid nodes without the
value that the nearer one requires. -/
theorem overridden_requirement_lost : ∃ c ∈ overridden.resolve.1,
    ∃ s ∈ superModels overridden.resolve.1 c, ∃ q ∈ s.properties,
      c.iri = "http://ex.org/C" ∧ s.iri = "http://ex.org/B" ∧ q.constraints.minCount = 1
        ∧ ¬ overridden.Declares c.iri q.iri
        ∧ (∃ r, Model.provider? (superModels overridden.resolve.1 c) q.iri = some r
          ∧ r.constraints.minCount = 0)
        ∧ ¬ ∀ g node, shapeViolations c.rules g node = .ok [] →
          q.rule.violations g node = .ok [] := by
  have hfound : ∃ c ∈ overridden.evaluate, ∃ s ∈ superModels overridden.evaluate c,
      ∃ q ∈ s.properties, c.iri = "http://ex.org/C" ∧ s.iri = "http://ex.org/B"
        ∧ q.constraints.minCount = 1 ∧ q.iri = "http://ex.org/p"
        ∧ (c.properties.map PropertyModel.name).Nodup
        ∧ shapeViolations c.rules .empty (.iri "http://ex.org/a") = .ok []
        ∧ q.rule.violations .empty (.iri "http://ex.org/a") ≠ .ok [] := by
    decide +kernel
  have hfirst : ∀ c ∈ overridden.evaluate, c.iri = "http://ex.org/C" →
      ∀ r ∈ Model.provider? (superModels overridden.evaluate c) "http://ex.org/p",
        r.constraints.minCount = 0
          ∧ r.rule.violations .empty (.iri "http://ex.org/a") = .ok [] := by
    decide +kernel
  have hpath : "http://ex.org/p" ∉
      (overridden.declared "http://ex.org/C").map PropertyShape.path := by
    decide
  rw [mem_paths_iff] at hpath
  rw [← resolve_eq_evaluate] at hfound hfirst
  obtain ⟨c, hc, s, hs, q, hq, hciri, hsiri, hmin, hqiri, hnames, hvalid, hfails⟩ := hfound
  rw [← hciri, ← hqiri] at hpath
  obtain ⟨r, hr, hiff, -⟩ := substitutable_iff hc hs hq hpath
  obtain ⟨hzero, hadmits⟩ := hfirst c hc hciri r (hqiri ▸ hr)
  refine ⟨c, hc, s, hs, q, hq, hciri, hsiri, hmin, hpath, ⟨r, hr, hzero⟩, fun hkept => ?_⟩
  rcases (hiff hnames).1.1 hkept with hnever | himplied
  · exact hnever _ _ hvalid
  · exact hfails (himplied _ _ hadmits)

end

end Ontology

end ShapeForge
