import ShapeForge.Platform.Standard
import ShapeForge.Proofs.Actions
import ShapeForge.Proofs.Conformance
import ShapeForge.Proofs.Objects

/-!
# Sequences of setter calls

Setters check values when they are set, rules check them in the graph. After any calls on a new
builder, each value has passed the rule of its property, and a scalar property has one value at
most (`Builder.Checked`): what one call keeps is kept by all (`Session.afterSetters_induction`). So
only counts and required values can be violated afterwards (`Ontology.violations_after_setters`).
-/

namespace ShapeForge

open Rdf (Graph Term)

/-- A call gives a property a term that passes its rule. -/
structure SetterCall.Sets [Platform] (s : Session) (c : ClassModel) (node : Term)
    (call : SetterCall) (p : PropertyModel) (t : Term) : Prop where
  property : c.property? call.property = some p
  term : ∃ v tag, call.given s p = .ok (v, tag) ∧ p.term v tag = .ok t
  passes : p.rule.valueViolations node.text t = .ok []

/-- An accepted call stores its term. A refused one makes a place for the property at most. -/
theorem SetterCall.apply_cases [Platform] (s : Session) (c : ClassModel) (b : Builder)
    (call : SetterCall) :
    (∃ p t, call.Sets s c b.node p t ∧ call.apply s c b = (.ok (), b.store p t))
      ∨ ∃ e b', call.apply s c b = (.error e, b')
        ∧ (b' = b ∨ ∃ p, b' = b.place p) := by
  unfold SetterCall.apply
  rcases hp : c.property? call.property with _ | p
  · exact .inr ⟨_, b, rfl, .inl rfl⟩
  · simp only []
    rcases hgiven : call.given s p with e | ⟨v, tag⟩
    · exact .inr ⟨e, b, rfl, .inl rfl⟩
    · simp only []
      rcases b.receive_cases p v tag with ⟨t, ht, hpasses, heq⟩ | ⟨e, b', heq, hb'⟩
      · exact .inl ⟨p, t, ⟨hp, ⟨v, tag, hgiven, ht⟩, hpasses⟩, by rw [heq]; rfl⟩
      · exact .inr ⟨.build e, b', by rw [heq]; rfl, hb'.imp_right fun h => ⟨p, h⟩⟩

namespace Session

/-- The session after setter calls on a variable, accepted or not. -/
def afterSetters [Platform] (x : String) (s : Session) (calls : List SetterCall) : Session :=
  calls.foldl (fun s call => ((Action.set x call).after s).2) s

/-- The setter calls that are accepted when they are made one after another. -/
def accepted [Platform] (x : String) : Session → List SetterCall → List SetterCall
  | _, [] => []
  | s, call :: calls =>
    let (result, s) := (Action.set x call).after s
    match result with
    | .ok _ => call :: accepted x s calls
    | .error _ => accepted x s calls

/-- The accepted calls of the setter of one property. -/
def acceptedOf [Platform] (x : String) (s : Session) (calls : List SetterCall) (name : String) :
    List SetterCall :=
  (s.accepted x calls).filter (·.property == name)

variable {x : String} {c : ClassModel}

/-- What holds of the builder at first and is kept by every stored term holds after all calls. -/
theorem afterSetters_induction [Platform] {P : List SetterCall → Builder → Prop}
    (store : ∀ s done b call p t, P done b → call.Sets s c b.node p t →
      P (done ++ [call]) (b.store p t))
    (place : ∀ done b p, P done b → P done (b.place p)) :
    ∀ (calls done : List SetterCall) (s : Session) (b : Builder),
      Assoc.get? x s.bindings = some (.builder c b) → P done b →
        ∃ b', s.afterSetters x calls = s.rebind x (.builder c b')
          ∧ P (done ++ s.accepted x calls) b'
  | [], done, s, b, hx, h => ⟨b, (rebind_self hx).symm, by rwa [accepted, List.append_nil]⟩
  | call :: calls, done, s, b, hx, h => by
    have hset := Action.after_set call hx
    rw [afterSetters, List.foldl_cons, ← afterSetters, accepted, hset]
    -- The induction is on the calls; an accepted one moves on to those that are done.
    rcases call.apply_cases s c b with ⟨p, t, hsets, heq⟩ | ⟨e, b', heq, hb'⟩
    · obtain ⟨b', hrun, hb'⟩ := afterSetters_induction store place calls (done ++ [call])
        (s.rebind x (.builder c (b.store p t))) (b.store p t) get?_rebind
        (store s done b call p t h hsets)
      refine ⟨b', ?_, ?_⟩
      · rw [heq, hrun, rebind_rebind]
      · rw [heq]
        rwa [List.append_assoc] at hb'
    · have hkept : P done b' := by
        rcases hb' with rfl | ⟨p, rfl⟩
        · exact h
        · exact place done b p h
      obtain ⟨b'', hrun, hb''⟩ := afterSetters_induction store place calls done
        (s.rebind x (.builder c b')) b' get?_rebind hkept
      refine ⟨b'', ?_, ?_⟩
      · rw [heq, hrun, rebind_rebind]
      · rw [heq]
        exact hb''

end Session

/-! ## Checked builders -/

namespace Builder

/-- Every value has passed the rule of its property, and a scalar property has one value at
most. -/
structure Checked [Platform] (c : ClassModel) (b : Builder) : Prop where
  keys : (b.values.map (·.1)).Nodup
  passes : ∀ name p, c.property? name = some p → ∀ t ∈ b.valuesOf p.iri,
    p.rule.valueViolations b.node.text t = .ok []
  single : ∀ name p, c.property? name = some p → p.isList = false →
    (b.valuesOf p.iri).length ≤ 1

namespace Checked

variable {c : ClassModel} {b : Builder}

theorem of_values_eq_nil [Platform] (h : b.values = []) : b.Checked c where
  keys := by simp [h]
  passes := by simp [valuesOf, h, Assoc.get?]
  single := by simp [valuesOf, h, Assoc.get?]

theorem place [Platform] (h : b.Checked c) (p : PropertyModel) : (b.place p).Checked c where
  keys := Assoc.put_keys_nodup h.keys
  passes := by
    intro name q hq t ht
    rw [valuesOf_place] at ht
    exact h.passes name q hq t ht
  single := by
    intro name q hq hscalar
    rw [valuesOf_place]
    exact h.single name q hq hscalar

theorem store [Platform] (hiris : (c.properties.map PropertyModel.iri).Nodup) (h : b.Checked c)
    {name : String} {p : PropertyModel} (hp : c.property? name = some p) {t : Term}
    (ht : p.rule.valueViolations b.node.text t = .ok []) : (b.store p t).Checked c := by
  -- A predicate is that of one property only.
  have hone : ∀ name q, c.property? name = some q → q.iri = p.iri → q = p := fun name q hq he =>
    List.inj_on_of_nodup_map hiris (ClassModel.of_property? hq).1 (ClassModel.of_property? hp).1 he
  refine ⟨Assoc.put_keys_nodup h.keys, fun name q hq u hu => ?_, fun name q hq hscalar => ?_⟩
  · by_cases he : q.iri = p.iri
    · obtain rfl := hone name q hq he
      rw [valuesOf_store] at hu
      split_ifs at hu
      · rcases List.mem_append.1 hu with hu | hu
        · exact h.passes name q hq u hu
        · rwa [List.mem_singleton.1 hu]
      · rwa [List.mem_singleton.1 hu]
    · rw [valuesOf_store_of_ne _ _ _ he] at hu
      exact h.passes name q hq u hu
  · by_cases he : q.iri = p.iri
    · obtain rfl := hone name q hq he
      simp [valuesOf_store, hscalar]
    · rw [valuesOf_store_of_ne _ _ _ he]
      exact h.single name q hq hscalar

theorem length_distinctTerms_le [Platform] (h : b.Checked c) {name : String} {p : PropertyModel}
    (hp : c.property? name = some p) (hscalar : p.isList = false) :
    (Rdf.distinctTerms (b.valuesOf p.iri)).length ≤ 1 := by
  have hsingle := h.single name p hp hscalar
  rcases hvalues : b.valuesOf p.iri with _ | ⟨t, _ | ⟨u, rest⟩⟩
  · simp [Rdf.distinctTerms]
  · simp [Rdf.distinctTerms]
  · simp [hvalues] at hsingle

/-- Of a checked builder, only counts and required values can be violated. -/
theorem violations_eq [Platform] (h : b.Checked c) (htype : ∀ p ∈ c.properties, p.iri ≠ Rdf.rdfType)
    {g : Graph} (hgraph : b.Unknown g) {r : Rule} (hr : r ∈ c.rules) :
    r.violations (b.graphOver g) b.node
      = (r.countViolations b.node.text (Rdf.distinctTerms (b.valuesOf r.path)).length).map
        (· ++ r.hasValueViolations b.node.text (Rdf.distinctTerms (b.valuesOf r.path))) := by
  obtain ⟨p, hp, rfl⟩ := ClassModel.mem_rules_iff.1 hr
  -- No property has the predicate for types, so the objects are the values of the builder.
  have hobjects : (b.graphOver g).objects b.node p.rule.predicate
      = Rdf.distinctTerms (b.valuesOf p.rule.path) := by
    have hclass : b.classTerms p.rule.path = [] :=
      if_neg fun hrdfType => htype p (ClassModel.of_property? hp).1 hrdfType.1
    rw [Rule.predicate, hgraph.objects_graphOver h.keys, hclass, List.nil_append]
  rw [← hobjects]
  refine Rule.violations_of_passing fun t ht => h.passes _ p hp t ?_
  rw [hobjects] at ht
  exact Rdf.mem_of_mem_distinctTerms ht

end Checked

end Builder

namespace Ontology

variable {o : Ontology} {c : ClassModel}

/-- After any setter calls on a new builder, its rules can be violated by counts and by required
values only, and more than the greatest count are there only if a list has so many values, or if
the greatest count is below one. Only a count with too many digits to be shown ends the check. -/
theorem violations_after_setters [Platform] (hc : c ∈ o.resolve.1)
    (htype : ∀ p ∈ c.properties, p.iri ≠ Rdf.rdfType) {s : Session} {x : String} {b : Builder}
    (hx : Assoc.get? x s.bindings = some (.builder c b)) (hnew : b.values = [])
    (hgraph : b.Unknown s.scope.graph) (calls : List SetterCall) :
    ∃ b', s.afterSetters x calls = s.rebind x (.builder c b')
      ∧ ((∃ found, shapeViolations c.rules (b'.graphOver s.scope.graph) b'.node = .ok found
          ∧ ∀ v ∈ found, v.constraint ∈ ["minCount", "maxCount", "hasValue"]
            ∧ (v.constraint = "maxCount" → ∃ p ∈ c.properties, v.property = p.name ∧ v.path = p.iri
              ∧ ∃ most, p.constraints.maxCount = some most
                ∧ (p.isList = true ∧ most < (Rdf.distinctTerms (b'.valuesOf p.iri)).length
                  ∨ p.isList = false ∧ most < 1)))
        ∨ shapeViolations c.rules (b'.graphOver s.scope.graph) b'.node = .error .longInteger
          ∧ ∃ p ∈ c.properties,
            p.rule.HidesCount (Rdf.distinctTerms (b'.valuesOf p.iri)).length) := by
  have hiris := property_iris_nodup hc
  obtain ⟨b', hrun, hchecked, hnode⟩ := Session.afterSetters_induction (x := x) (c := c)
    (P := fun _ b' => b'.Checked c ∧ b'.node = b.node)
    (fun s done b' call p t h hsets => ⟨h.1.store hiris hsets.property hsets.passes, h.2⟩)
    (fun done b' p h => ⟨h.1.place p, h.2⟩)
    calls [] s b hx ⟨.of_values_eq_nil hnew, rfl⟩
  have hunknown : b'.Unknown s.scope.graph := by
    rw [Builder.Unknown, hnode]
    exact hgraph
  refine ⟨b', hrun, ?_⟩
  rcases hfound : shapeViolations c.rules (b'.graphOver s.scope.graph) b'.node with e | found
  · refine .inr ?_
    obtain ⟨r, hr, he⟩ := exists_of_mapM_error (map_error_iff.1 hfound)
    rw [hchecked.violations_eq htype hunknown hr] at he
    obtain ⟨rfl, hhidden⟩ := Rule.countViolations_error (map_error_iff.1 he)
    obtain ⟨p, hp, rfl⟩ := ClassModel.mem_rules_iff.1 hr
    exact ⟨rfl, p, (ClassModel.of_property? hp).1, hhidden⟩
  · refine .inl ⟨found, rfl, fun v hv => ?_⟩
    obtain ⟨r, hr, own, hown, hv⟩ := exists_of_mem_shapeViolations hfound hv
    rw [hchecked.violations_eq htype hunknown hr] at hown
    obtain ⟨counts, hcounts, rfl⟩ := map_ok_iff.1 hown
    obtain ⟨p, hp, rfl⟩ := ClassModel.mem_rules_iff.1 hr
    rcases List.mem_append.1 hv with hv | hv
    · obtain ⟨hname, hpath, hmin | ⟨hmax, most, hmost, hlt⟩⟩ :=
        Rule.of_mem_countViolations hcounts hv
      · simp [hmin]
      · refine ⟨by simp [hmax], fun _ =>
          ⟨p, (ClassModel.of_property? hp).1, hname, hpath, most, hmost, ?_⟩⟩
        rcases hlist : p.isList with _ | _
        · have hone := hchecked.length_distinctTerms_le hp hlist
          exact .inr ⟨rfl, hlt.trans_le (by exact_mod_cast hone)⟩
        · exact .inl ⟨rfl, hlt⟩
    · simp [Rule.of_mem_hasValueViolations hv]

/-- A class with names of at most three characters, of which a node may have two. -/
def shortNames : Ontology where
  shapes :=
    [⟨"s", "http://ex.org/P",
      [{ path := "http://ex.org/name", name := "name"
         constraints := { maxLength := some 3, maxCount := some 2 } }]⟩]
  classes := [⟨"http://ex.org/P", "P", []⟩]

/-- A session with a new builder of a class. -/
def newSession (c : ClassModel) : Session where
  package := ⟨{ dslName := "d", packageName := "p" }, [c]⟩
  registry := {}
  bindings := [("x", .builder c
    { className := c.builderClass, classIri := c.iri, node := .iri "http://ex.org/a" })]

/-- Calls with four names, of which the second is too long. -/
def fourNames : List SetterCall :=
  ["ab", "long", "cd", "ef"].map fun name => { property := "name", value := .value (.text name) }

section

attribute [local instance] Platform.standard

/-- The long name is refused at once, and the number of the others only by the rules. -/
theorem shortNames_violations : ∃ c ∈ shortNames.resolve.1, ∃ b' found,
    (newSession c).afterSetters "x" fourNames = (newSession c).rebind "x" (.builder c b')
      ∧ b'.valuesOf "http://ex.org/name"
        = [.literal (.plain "ab"), .literal (.plain "cd"), .literal (.plain "ef")]
      ∧ shapeViolations c.rules (b'.graphOver .empty) b'.node = .ok found
      ∧ found.map Violation.constraint = ["maxCount"]
      ∧ ∀ v ∈ found, v.constraint ∈ ["minCount", "maxCount", "hasValue"] := by
  have hfound : ∃ c ∈ shortNames.evaluate, (∀ p ∈ c.properties, p.iri ≠ Rdf.rdfType)
      ∧ (((Action.lookupBuilder "x").after ((newSession c).afterSetters "x" fourNames)).1.map
        fun e => (e.2.valuesOf "http://ex.org/name",
          (shapeViolations e.1.rules (e.2.graphOver .empty) e.2.node).map
            (List.map Violation.constraint)))
        = .ok ([.literal (.plain "ab"), .literal (.plain "cd"), .literal (.plain "ef")],
          .ok ["maxCount"]) := by
    decide +kernel
  rw [← resolve_eq_evaluate] at hfound
  obtain ⟨c, hc, htype, hrun⟩ := hfound
  obtain ⟨b', hafter, houtcome⟩ := violations_after_setters hc htype
    (s := newSession c) (x := "x") rfl rfl (Builder.unknown_empty _) fourNames
  rw [show (newSession c).scope.graph = .empty from rfl] at houtcome
  rw [hafter, Action.after_lookupBuilder Session.get?_rebind] at hrun
  rcases houtcome with ⟨found, hviolations, hkinds⟩ | ⟨hviolations, -⟩
  · simp only [Except.map, hviolations, Except.ok.injEq, Prod.mk.injEq] at hrun
    exact ⟨c, hc, b', found, hafter, hrun.1, hviolations, hrun.2, fun v hv => (hkinds v hv).1⟩
  · simp [Except.map, hviolations] at hrun

end

end Ontology

end ShapeForge
