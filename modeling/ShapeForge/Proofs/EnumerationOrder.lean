import ShapeForge.Proofs.SharedScope
import ShapeForge.Proofs.ViolationReports

/-!
# The order of a graph

What a rule finds depends on the objects of one subject and one predicate only, and their order
decides nothing but the order of the violations (`Rule.sameFound_of_objects`). A graph has no triple
twice, so two graphs that agree on the triples of the rules give the same violations
(`shapeViolations_sameFound`).

The violations of a builder are therefore the same in whatever order the graph of its scope is
copied.
-/

namespace ShapeForge

open Rdf (Graph Term Triple)

/-! ## Graphs without repetitions -/

namespace Rdf.Graph

variable {g h : Graph}

/-- The objects of a subject and a predicate are told apart also without the case of tags. -/
theorem nodup_objects (g : Graph) (s p : Term) : ((g.objects s p).map Term.folded).Nodup := by
  rw [List.Nodup, List.pairwise_map]
  refine (g.objects_distinct s p).imp fun {t u} hsame heq => ?_
  exact absurd (Term.same_iff.2 heq) (by simp [hsame])

theorem folded_mem_objects {s p t : Term} :
    t.folded ∈ (g.objects s p).map Term.folded ↔ g.contains ⟨s, p, t⟩ = true := by
  have habout : Triple.about s p ⟨s, p, t⟩ = true := by simp [Triple.about, Term.same_refl]
  rw [g.contains_eq_any_object habout, List.any_eq_true, List.mem_map]
  simp only [Term.same_iff, eq_comm (a := t.folded)]

theorem objects_perm {s p : Term}
    (hsame : ∀ t, g.contains ⟨s, p, t⟩ = h.contains ⟨s, p, t⟩) :
    ((g.objects s p).map Term.folded).Perm ((h.objects s p).map Term.folded) := by
  rw [List.perm_ext_iff_of_nodup (g.nodup_objects s p) (h.nodup_objects s p)]
  have hsubset : ∀ {g h : Graph}, (∀ t, g.contains ⟨s, p, t⟩ = h.contains ⟨s, p, t⟩) →
      ∀ u ∈ (g.objects s p).map Term.folded, u ∈ (h.objects s p).map Term.folded := by
    intro g h hsame u hu
    obtain ⟨t, ht, rfl⟩ := List.mem_map.1 hu
    rw [folded_mem_objects, ← hsame, ← folded_mem_objects]
    exact hu
  exact fun u => ⟨hsubset hsame u, hsubset (fun t => (hsame t).symm) u⟩

/-- A copy of a graph in any order holds the same triples. -/
theorem contains_ofList {ts : List Triple} (h : ts.Perm g.triples) (t : Triple) :
    (ofList ts).contains t = g.contains t := by
  rw [ofList, contains_insertAll, h.any_eq]
  rfl

end Rdf.Graph

/-! ## Computations in another order -/

section Order

variable {α β ε : Type} {f : α → Except ε β}

/-- The order of a list does not decide which results there are. -/
theorem exists_mapM_ok_of_perm {xs ys : List α} (h : xs.Perm ys) {bs : List β}
    (hys : ys.mapM f = .ok bs) : ∃ as, xs.mapM f = .ok as ∧ as.Perm bs := by
  obtain ⟨as, has, hperm⟩ := List.perm_comp_forall₂ h (mapM_ok_iff.1 hys)
  exact ⟨as, mapM_ok_iff.2 has, hperm⟩

/-- Nor does it decide whether a computation fails. -/
theorem mapM_perm {xs ys : List α} (h : xs.Perm ys) :
    (∃ as bs, xs.mapM f = .ok as ∧ ys.mapM f = .ok bs ∧ as.Perm bs)
      ∨ ∃ e e', xs.mapM f = .error e ∧ ys.mapM f = .error e' := by
  rcases hys : ys.mapM f with e' | bs
  · rcases hxs : xs.mapM f with e | as
    · exact .inr ⟨e, e', rfl, rfl⟩
    · obtain ⟨bs, hbs, -⟩ := exists_mapM_ok_of_perm h.symm hxs
      simp [hbs] at hys
  · obtain ⟨as, has, hperm⟩ := exists_mapM_ok_of_perm h hys
    exact .inl ⟨as, bs, has, rfl, hperm⟩

end Order

/-! ## Violations in another order -/

namespace Rule

/-- Every bound can be shown in a message. Only an integer beyond all doubles cannot. -/
def BoundsShown (r : Rule) : Prop :=
  ∀ kind bound, BoundKind.bound r.constraints kind = some bound → ∃ text, bound.shown = .ok text

end Rule

/-- A check of rules may fail since a bound, or a limit of a count or a length, cannot be shown. -/
inductive Unshown (rules : List Rule) : CheckError → Prop
  | bound {r : Rule} : r ∈ rules → ¬ r.BoundsShown → Unshown rules .overflow
  | limit {r : Rule} {k : Component} : r ∈ rules → ¬ r.Shows k → Unshown rules .longInteger

theorem Unshown.mono {rules rules' : List Rule} {e : CheckError} (h : Unshown rules e)
    (hsubset : ∀ r ∈ rules, r ∈ rules') : Unshown rules' e := by
  cases h with
  | bound hr hbounds => exact .bound (hsubset _ hr) hbounds
  | limit hr hlimit => exact .limit (hsubset _ hr) hlimit

/-- Checks of rules find the same violations, in whatever order, or both fail since something cannot
be shown. -/
inductive SameFound (rules : List Rule) :
    Except CheckError (List Violation) → Except CheckError (List Violation) → Prop
  | found {a b : List Violation} : a.Perm b → SameFound rules (.ok a) (.ok b)
  | failed {e e' : CheckError} : Unshown rules e → Unshown rules e' →
    SameFound rules (.error e) (.error e')

namespace Rule

variable {r : Rule} {focus : String}

theorem valueViolations_folded [Platform] (t : Term) :
    r.valueViolations focus t.folded = r.valueViolations focus t := by
  rw [valueViolations, valueViolations, Term.text_folded, Term.isLiteral_folded]

theorem hasValueViolations_folded (values : List Term) :
    r.hasValueViolations focus (values.map Term.folded) = r.hasValueViolations focus values := by
  have hany : ∀ required : String, (values.map Term.folded).any (fun v => v.text == required)
      = values.any fun v => v.text == required := fun required => by
    simp [List.any_map, Function.comp_def, Term.text_folded]
  simp only [hasValueViolations, hany]

theorem hasValueViolations_perm {values values' : List Term} (h : values.Perm values') :
    r.hasValueViolations focus values = r.hasValueViolations focus values' := by
  simp only [hasValueViolations, h.any_eq]

theorem error_of_boundViolation {lexical : String} {value : Bound} {check : BoundCheck}
    {e : CheckError} (h : r.boundViolation focus lexical value check = .error e) :
    e = .overflow ∧ ∃ bound, check.bound = some bound ∧ ∀ text, bound.shown ≠ .ok text := by
  unfold boundViolation at h
  rcases hbound : check.bound with _ | bound
  · simp [hbound] at h
  · simp only [hbound] at h
    split_ifs at h
    rcases hshown : bound.shown with e' | text
    · obtain rfl : e' = e := by simpa [bind, Except.bind, hshown] using h
      refine ⟨?_, bound, rfl, by simp [hshown]⟩
      unfold Bound.shown at hshown
      split at hshown
      · split at hshown <;> simp_all
      · simp at hshown
    · simp [bind, Except.bind, pure, Except.pure, hshown] at h

theorem error_of_typeViolations {lexical : String} {e : CheckError}
    (h : r.typeViolations focus lexical = .error e) : Unshown [r] e := by
  unfold typeViolations at h
  split at h
  · cases h
  · cases h
  · split at h
    · cases h
    · split at h
      · cases h
      · rename_i number _
        rcases bind_error_iff.1 h with h | ⟨_, -, h⟩
        · obtain ⟨check, hcheck, herror⟩ := exists_of_mapM_error h
          rw [boundChecks_eq] at hcheck
          obtain ⟨kind, -, rfl⟩ := List.mem_map.1 hcheck
          obtain ⟨rfl, bound, hbound, hshown⟩ := error_of_boundViolation herror
          rw [checkOf_bound] at hbound
          refine .bound (List.mem_singleton_self r) fun hall => ?_
          obtain ⟨text, htext⟩ := hall kind bound hbound
          exact hshown text htext
        · cases h

theorem error_of_limitViolation {k : Component} {isBroken : ℤ → Bool} {message : ℤ → String}
    {value : Option String} {e : CheckError}
    (h : r.limitViolation focus k.name (k.limit? r.constraints) isBroken message value = .error e) :
    Unshown [r] e := by
  obtain ⟨rfl, limit, hlimit, -, hhidden⟩ := limitViolation_error_iff.1 h
  refine .limit (k := k) (List.mem_singleton_self r) fun hshows => ?_
  simp [hshows limit hlimit] at hhidden

theorem error_of_lengthViolations {lexical : String} {e : CheckError}
    (h : r.lengthViolations focus lexical = .error e) : Unshown [r] e := by
  rcases of_append_error h with h | h
  · exact error_of_limitViolation (k := .minLength) h
  · exact error_of_limitViolation (k := .maxLength) h

theorem error_of_countViolations {count : ℤ} {e : CheckError}
    (h : r.countViolations focus count = .error e) : Unshown [r] e := by
  rcases of_append_error h with h | h
  · exact error_of_limitViolation (k := .minCount) h
  · exact error_of_limitViolation (k := .maxCount) h

variable [Platform]

theorem error_of_valueViolations (hpattern : r.PatternReads) {t : Term} {e : CheckError}
    (h : r.valueViolations focus t = .error e) : Unshown [r] e := by
  rw [valueViolations] at h
  split_ifs at h
  rcases bind_error_iff.1 h with h | ⟨_, -, h⟩
  · exact error_of_lengthViolations h
  · rcases bind_error_iff.1 h with h | ⟨_, -, h⟩
    · -- The pattern is a regular expression.
      unfold patternViolations at h
      split at h
      · cases h
      · rename_i expression hexpression
        obtain ⟨accepts, haccepts⟩ := hpattern expression hexpression
        simp only [haccepts] at h
        split_ifs at h
    · rcases bind_error_iff.1 h with h | ⟨_, -, h⟩
      · exact error_of_typeViolations h
      · cases h

theorem error_of_each (hpattern : r.PatternReads) {ts : List Term} {e : CheckError}
    (h : ts.mapM (r.valueViolations focus) = .error e) : Unshown [r] e := by
  obtain ⟨t, -, ht⟩ := exists_of_mapM_error h
  exact error_of_valueViolations hpattern ht

/-- What a rule finds depends on the objects of its predicate, and on their order only as to the
order of the violations. -/
theorem sameFound_of_objects (hpattern : r.PatternReads) {g h : Graph} {node : Term}
    (hperm : ((g.objects node r.predicate).map Term.folded).Perm
      ((h.objects node r.predicate).map Term.folded)) :
    SameFound [r] (r.violations g node) (r.violations h node) := by
  have hmapM : ∀ values : List Term, values.mapM (r.valueViolations node.text)
      = (values.map Term.folded).mapM (r.valueViolations node.text) := fun values => by
    rw [List.mapM_map]
    exact congrArg values.mapM (funext fun t => (valueViolations_folded t).symm)
  have hlength : (g.objects node r.predicate).length = (h.objects node r.predicate).length := by
    simpa using hperm.length_eq
  have hvalue : r.hasValueViolations node.text (g.objects node r.predicate)
      = r.hasValueViolations node.text (h.objects node r.predicate) := by
    rw [← hasValueViolations_folded, hasValueViolations_perm hperm, hasValueViolations_folded]
  rw [violations, violations, hmapM (g.objects node r.predicate),
    hmapM (h.objects node r.predicate), hlength, hvalue]
  rcases hcounts : r.countViolations node.text (h.objects node r.predicate).length with e | counts
  · exact .failed (error_of_countViolations hcounts) (error_of_countViolations hcounts)
  · rcases mapM_perm (f := r.valueViolations node.text) hperm with
      ⟨found, found', hfound, hfound', heach⟩ | ⟨e, e', hg, hh⟩
    · rw [hfound, hfound']
      exact .found ((heach.flatten.append_left _).append_right _)
    · rw [hg, hh]
      exact .failed (error_of_each hpattern hg) (error_of_each hpattern hh)

end Rule

section Shapes

variable [Platform]

theorem shapeViolations_cons (r : Rule) (rules : List Rule) (g : Graph) (node : Term) :
    shapeViolations (r :: rules) g node = (do
      let first ← r.violations g node
      let others ← shapeViolations rules g node
      return first ++ others) :=
  mapM_flatten_cons (fun r : Rule => r.violations g node) r rules

theorem sameFound_flatten {g h : Graph} {node : Term} : ∀ {rules : List Rule},
    (∀ r ∈ rules, SameFound [r] (r.violations g node) (r.violations h node)) →
      SameFound rules (shapeViolations rules g node) (shapeViolations rules h node)
  | [], _ => .found (.refl _)
  | r :: rules, hall => by
    rw [List.forall_mem_cons] at hall
    have hrest := sameFound_flatten hall.2
    rw [shapeViolations_cons, shapeViolations_cons]
    have hweaken : ∀ {e : CheckError}, Unshown rules e → Unshown (r :: rules) e := fun h =>
      h.mono fun _ => List.mem_cons_of_mem r
    generalize r.violations g node = x, r.violations h node = y at hall ⊢
    generalize shapeViolations rules g node = xs, shapeViolations rules h node = ys at hrest ⊢
    obtain ⟨hfirst, -⟩ := hall
    cases hfirst with
    | failed he he' => exact .failed (he.mono (by simp)) (he'.mono (by simp))
    | found hperm =>
      cases hrest with
      | failed he he' => exact .failed (hweaken he) (hweaken he')
      | found hothers => exact .found (hperm.append hothers)

/-- Graphs that agree on the triples of the rules give the same violations. -/
theorem shapeViolations_sameFound {rules : List Rule} (hpatterns : ∀ r ∈ rules, r.PatternReads)
    {g h : Graph} {node : Term}
    (hsame : ∀ r ∈ rules, ∀ t, g.contains ⟨node, r.predicate, t⟩
      = h.contains ⟨node, r.predicate, t⟩) :
    SameFound rules (shapeViolations rules g node) (shapeViolations rules h node) :=
  sameFound_flatten fun r hr =>
    Rule.sameFound_of_objects (hpatterns r hr) (Graph.objects_perm (hsame r hr))

/-- Rules whose patterns are regular expressions find the same violations in graphs that hold the
same objects for their predicates. So the validation of a builder answers the same violations in
whatever order the graph of its scope is copied. -/
theorem validation_order_free {rules : List Rule} (hpatterns : ∀ r ∈ rules, r.PatternReads) :
    (∀ (node : Term) (g h : Graph),
      (∀ r ∈ rules, ∀ t, g.contains ⟨node, r.predicate, t⟩
        = h.contains ⟨node, r.predicate, t⟩) →
      SameFound rules (shapeViolations rules g node) (shapeViolations rules h node))
    ∧ ∀ (w : Workbench) (name : String) (b : Builder) (a : Attachment),
      Assoc.get? name w.builders = some (b, a) →
      ∃ answer, (w.perform (.validate name rules)).1
          = (answer.map Answer.violations).mapError (.build ∘ .check)
        ∧ ∀ copy : List Triple, copy.Perm (a.graph w.scope).triples →
          SameFound rules (shapeViolations rules (b.graphOver (.ofList copy)) b.node) answer := by
  refine ⟨fun node g h => shapeViolations_sameFound hpatterns, fun w name b a hget => ?_⟩
  refine ⟨shapeViolations rules (b.graphOver (a.graph w.scope)) b.node, ?_, fun copy hcopy => ?_⟩
  · simp only [Workbench.perform, Workbench.withBuilder, hget]
  · refine shapeViolations_sameFound hpatterns fun r _ t => ?_
    rw [Builder.graphOver, Builder.graphOver, Graph.contains_insertAll, Graph.contains_insertAll,
      Graph.contains_ofList hcopy]

end Shapes

/-- Two ages of a node, one after the other. -/
def agesInOrder : Graph :=
  .ofList [⟨.iri "n", .iri "age", .literal { lexical := "-5" }⟩,
    ⟨.iri "n", .iri "age", .literal { lexical := "12x" }⟩]

/-- The same ages the other way round, with one of another node. -/
def agesReordered : Graph :=
  .ofList [⟨.iri "n", .iri "age", .literal { lexical := "12x" }⟩,
    ⟨.iri "m", .iri "age", .literal { lexical := "8" }⟩,
    ⟨.iri "n", .iri "age", .literal { lexical := "-5" }⟩]

section

attribute [local instance] Platform.standard

/-- A builder of the node in a scope that has its ages. -/
def agedWorkbench : Workbench :=
  (Workbench.start agesInOrder).run [.create "x" "Builder" "C" (.text "n") true]

/-- The violations come in another order and are the same, also for a builder of the node in a copy
of its scope that is turned around. -/
theorem reordered_ages_sameFound :
    (shapeViolations [Rule.ageRule] agesInOrder (.iri "n")).map (List.map Violation.constraint)
      = .ok ["maxCount", "pattern", "minInclusive", "pattern", "datatype"]
    ∧ (shapeViolations [Rule.ageRule] agesReordered (.iri "n")).map (List.map Violation.constraint)
      = .ok ["maxCount", "pattern", "datatype", "pattern", "minInclusive"]
    ∧ SameFound [Rule.ageRule] (shapeViolations [Rule.ageRule] agesInOrder (.iri "n"))
      (shapeViolations [Rule.ageRule] agesReordered (.iri "n"))
    ∧ ∃ answer,
      (agedWorkbench.perform (.validate "x" [Rule.ageRule])).1
          = (answer.map Answer.violations).mapError (.build ∘ .check)
      ∧ SameFound [Rule.ageRule]
        (shapeViolations [Rule.ageRule]
          (Builder.graphOver { className := "Builder", classIri := "C", node := .iri "n" }
            (.ofList agesInOrder.triples.reverse)) (.iri "n")) answer := by
  have hpatterns : ∀ r ∈ [Rule.ageRule], r.PatternReads :=
    List.forall_mem_singleton.2 Rule.ageRule_patternReads
  obtain ⟨hgraphs, hcopies⟩ := validation_order_free hpatterns
  have hobjects : agesInOrder.objects (.iri "n") (.iri "age")
        = [.literal { lexical := "-5" }, .literal { lexical := "12x" }]
      ∧ agesReordered.objects (.iri "n") (.iri "age")
        = [.literal { lexical := "12x" }, .literal { lexical := "-5" }] := by
    decide +kernel
  refine ⟨by decide +kernel, by decide +kernel, hgraphs _ _ _ fun r hr t => ?_, ?_⟩
  · obtain rfl := List.mem_singleton.1 hr
    have habout : Triple.about (.iri "n") (.iri "age") ⟨.iri "n", Rule.ageRule.predicate, t⟩
        = true := by
      simp [Triple.about, Rule.predicate, Rule.ageRule, Term.same_refl]
    rw [Graph.contains_eq_any_object _ habout, Graph.contains_eq_any_object _ habout, hobjects.1,
      hobjects.2]
    simp [Bool.or_comm]
  · obtain ⟨answer, hanswer, hsame⟩ := hcopies agedWorkbench "x"
      { className := "Builder", classIri := "C", node := .iri "n" } .shared rfl
    exact ⟨answer, hanswer, hsame _ (List.reverse_perm _)⟩

end

end ShapeForge
