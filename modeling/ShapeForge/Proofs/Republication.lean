import ShapeForge.Platform.Standard
import ShapeForge.Proofs.Actions
import ShapeForge.Proofs.Members
import ShapeForge.Proofs.SharedScope

/-!
# Scalar values that are built again

A setter of a scalar value replaces what the builder holds, and building adds what it holds to the
scope. So right after a build, the objects of a predicate are the values that were held at this and
the earlier builds, in the order of their first build (`Workbench.publishes_run`): a value that is
replaced after it was built stays, and is what an accessor reads.
-/

namespace ShapeForge

open Rdf (Graph Term Triple distinctTerms)

/-! ## First occurrences of terms -/

namespace Rdf

theorem foldl_distinct_of_any {terms seen : List Term} (h : ∀ t ∈ terms, seen.any t.same = true) :
    terms.foldl (fun seen t => if seen.any t.same then seen else seen ++ [t]) seen = seen := by
  rw [foldl_distinct, List.filter_eq_nil_iff.2 fun t ht => by simp [h t ht], List.eraseDupsBy_nil,
    List.append_nil]

/-- Terms that are there already can be left out. -/
theorem distinctTerms_append_again {terms again others : List Term} (h : again ⊆ terms) :
    distinctTerms (terms ++ (again ++ others)) = distinctTerms (terms ++ others) := by
  have hcovers := (distinctTerms_firstOccurrences terms).covers
  rw [distinctTerms, distinctTerms, List.foldl_append, List.foldl_append, List.foldl_append]
  change List.foldl _ (List.foldl _ (distinctTerms terms) again) others = _
  rw [foldl_distinct_of_any fun t ht => hcovers t (h ht)]
  rfl

/-- There is one term exactly if all are the same. -/
theorem distinctTerms_eq_singleton_iff {terms : List Term} {t : Term} (ht : t ∈ terms) :
    (∃ o, distinctTerms terms = [o] ∧ o.same t = true) ↔ ∀ u ∈ terms, u.same t = true := by
  have hfirst := distinctTerms_firstOccurrences terms
  constructor
  · rintro ⟨o, ho, hsame⟩ u hu
    have hany := hfirst.covers u hu
    rw [ho, List.any_cons, List.any_nil, Bool.or_false] at hany
    exact Term.same_trans hany hsame
  · intro h
    have hapart := hfirst.pairwise sameness_same
    have hall : ∀ o ∈ distinctTerms terms, o.same t = true := fun o ho => h o (hfirst.mem ho)
    rcases hterms : distinctTerms terms with _ | ⟨o, _ | ⟨o', rest⟩⟩
    · have hany := hfirst.covers t ht
      simp [hterms] at hany
    · exact ⟨o, rfl, hall o (by simp [hterms])⟩
    · -- Two terms that are the same as a third one are the same.
      rw [hterms] at hapart hall
      have hsame : o.same o' = true := Term.same_trans (hall o (by simp))
        ((Term.same_comm _ _).trans (hall o' (by simp)))
      simp [hsame] at hapart

/-- What is found first is found in a first occurrence. -/
theorem findSome?_distinctTerms {α : Type} {f : Term → Option α}
    (hf : ∀ t u, t.same u = true → f t = none → f u = none) (terms : List Term) :
    (distinctTerms terms).findSome? f = terms.findSome? f := by
  have hfold : ∀ terms seen : List Term,
      (terms.foldl (fun seen t => if seen.any t.same then seen else seen ++ [t]) seen).findSome? f
        = (seen.findSome? f).or (terms.findSome? f) := by
    intro terms
    induction terms with
    | nil => simp
    | cons t terms ih =>
      intro seen
      rw [List.foldl_cons, ih, List.findSome?_cons]
      split_ifs with hany
      · obtain ⟨u, hu, hsame⟩ := List.any_eq_true.1 hany
        rcases hseen : seen.findSome? f with _ | a
        · have hnone : f t = none :=
            hf u t ((Term.same_comm _ _).trans hsame) (List.findSome?_eq_none_iff.1 hseen u hu)
          rw [hnone]
        · rfl
      · rw [List.findSome?_append, List.findSome?_singleton, Option.or_assoc]
        cases f t <;> rfl
  rw [distinctTerms, hfold]
  rfl

end Rdf

theorem Rdf.Term.isResource_congr {t u : Term} (hsame : t.same u = true) :
    t.isResource = u.isResource := by
  rw [isResource, isResource, ← isLiteral_folded t, same_iff.1 hsame, isLiteral_folded]

/-- Whether a term can be read as a value does not depend on the case of its language tag. -/
theorem ValueType.readTerm?_of_same (type : ValueType) (t u : Term) (hsame : t.same u = true)
    (h : type.readTerm? t = none) : type.readTerm? u = none := by
  have hkind := Term.isResource_congr hsame
  have htext : t.text = u.text := by
    rw [← Term.text_folded t, Term.same_iff.1 hsame, Term.text_folded]
  cases u with
  | iri | blank => rfl
  | literal m =>
    cases t with
    | iri | blank => cases hkind
    | literal l =>
      change l.lexical = m.lexical at htext
      rcases type with (_ | _ | _ | _) | name
      · simp [readTerm?] at h
      all_goals simpa only [readTerm?, htext] using h

/-! ## What a builder holds, and what it has built -/

/-- A call on a builder of scalar values. -/
inductive ScalarCall where
  | literal (rule : Rule) (value : Value) (datatype lang : Option String)
  | node (rule : Rule) (value : Value)
  | build

namespace ScalarCall

/-- The call on the builder of a name. -/
def operation (name : String) : ScalarCall → Operation
  | .literal rule value datatype lang => .keepLiteral name .replace rule value datatype lang
  | .node rule value => .keepNode name .replace rule value
  | .build => .build name

/-- The rule of a setter, and the term that it makes of its value. -/
def setting? [Rdf.Datatypes] : ScalarCall → Option (Rule × Term)
  | .literal rule value datatype lang =>
    (value.literal datatype lang).toOption.map fun l => (rule, .literal l)
  | .node rule value => value.node.toOption.map fun t => (rule, t)
  | .build => none

def isBuild : ScalarCall → Bool
  | .build => true
  | _ => false

/-- The value that a call gives a predicate of a node: a setter of the predicate does, if the term
that it makes passes its rule. -/
def accepted? [Platform] (node : Term) (path : String) (call : ScalarCall) : Option Term :=
  call.setting?.bind fun s =>
    if s.1.path = path ∧ s.1.valueViolations node.text s.2 = .ok [] then some s.2 else none

/-- The value of a predicate that was last accepted. -/
def held [Platform] (node : Term) (path : String) (calls : List ScalarCall) : Option Term :=
  (calls.filterMap (accepted? node path)).getLast?

/-- The values of a predicate that were the last accepted ones at the builds, in order. -/
def published [Platform] (node : Term) (path : String) (calls : List ScalarCall) : List Term :=
  (calls.inits.filter fun before => before.getLast?.any isBuild).filterMap (held node path)

variable {node : Term} {path : String} {calls : List ScalarCall} {call : ScalarCall}

theorem accepted?_of_isBuild [Platform] (h : call.isBuild = true) :
    call.accepted? node path = none := by
  cases call with
  | build => rfl
  | literal | node => cases h

theorem held_concat [Platform] (node : Term) (path : String) (calls : List ScalarCall)
    (call : ScalarCall) :
    held node path (calls ++ [call]) = (call.accepted? node path).or (held node path calls) := by
  rw [held, List.filterMap_append, List.getLast?_append, held]
  rcases h : call.accepted? node path with _ | t <;> simp [h]

theorem published_concat [Platform] (node : Term) (path : String) (calls : List ScalarCall)
    (call : ScalarCall) :
    published node path (calls ++ [call]) = published node path calls
      ++ if call.isBuild then (held node path calls).toList else [] := by
  rw [published, List.inits_append, List.filter_append, List.filterMap_append, published]
  congr 1
  have hlast : held node path (calls ++ [call])
      = (call.accepted? node path).or (held node path calls) := held_concat node path calls call
  cases hcall : call.isBuild with
  | false => simp [hcall]
  | true =>
    rw [accepted?_of_isBuild hcall, Option.none_or] at hlast
    rcases hheld : held node path calls with _ | t <;> simp [hcall, hlast, hheld]

theorem published_eq_nil [Platform] (h : calls.any isBuild = false) :
    published node path calls = [] := by
  rw [published, List.filter_eq_nil_iff.2 fun before hbefore => ?_, List.filterMap_nil]
  have hmem : before ⊆ calls := ((List.mem_inits _ _).1 hbefore).subset
  rcases hlast : before.getLast? with _ | call
  · simp
  · simpa using List.any_eq_false.1 h call (hmem (List.mem_of_getLast? hlast))

theorem any_isBuild (calls : List ScalarCall) : (calls ++ [build]).any isBuild = true := by
  rw [List.any_append]
  exact Bool.or_true _

/-- Right after a build, what is held is what was published last. -/
theorem mem_published [Platform] {t : Term} (h : held node path calls = some t) :
    t ∈ published node path (calls ++ [.build]) := by
  rw [published_concat, h]
  simp [isBuild]

end ScalarCall

namespace Builder

/-- The builder after a setter of a scalar value, which is as before if the value is refused. -/
def after [Platform] (b : Builder) (call : ScalarCall) : Builder :=
  (call.setting?.map fun s => (b.keep .replace s.1 s.2).2).getD b

theorem after_literal [Platform] (b : Builder) (rule : Rule) (value : Value)
    (datatype lang : Option String) :
    (b.keepLiteral .replace rule value datatype lang).2
      = b.after (.literal rule value datatype lang) := by
  rw [keepLiteral, after, ScalarCall.setting?]
  rcases value.literal datatype lang with e | l <;> rfl

theorem after_node [Platform] (b : Builder) (rule : Rule) (value : Value) :
    (b.keepNode .replace rule value).2 = b.after (.node rule value) := by
  rw [keepNode, after, ScalarCall.setting?]
  rcases value.node with e | t <;> rfl

/-- A value that passes its rule takes the place of the others of its predicate. -/
theorem keep_replace [Platform] (b : Builder) (rule : Rule) (t : Term) :
    (b.keep .replace rule t).2
      = if rule.valueViolations b.node.text t = .ok []
        then { b with values := Assoc.put rule.path [t] b.values } else b := by
  simp only [keep]
  rcases hcheck : b.check rule t with e | _
  · have hinvalid : ¬rule.valueViolations b.node.text t = .ok [] := fun hvalid => by
      rw [check_ok_iff.2 hvalid] at hcheck
      cases hcheck
    rw [if_neg hinvalid]
  · rw [if_pos (check_ok_iff.1 hcheck)]

/-- The values that a builder holds are the ones that were accepted last, and the objects of its
node in a graph are the class and the values that were held at the builds. -/
structure Publishes [Platform] (b : Builder) (calls : List ScalarCall) (g : Graph) : Prop where
  keys : (b.values.map (·.1)).Nodup
  values : ∀ path, b.valuesOf path = (ScalarCall.held b.node path calls).toList
  objects : ∀ path, g.objects b.node (.iri path)
    = if calls.any ScalarCall.isBuild
      then distinctTerms (b.classTerms path ++ ScalarCall.published b.node path calls) else []

namespace Publishes

variable {b : Builder} {calls : List ScalarCall} {g : Graph}

theorem start [Platform] (className classIri : String) (node : Term) :
    Publishes { className, classIri, node } [] .empty :=
  ⟨List.nodup_nil, fun _ => rfl, fun _ => rfl⟩

/-- A setter changes the value of its predicate, if at all. -/
theorem set [Platform] (h : b.Publishes calls g) {call : ScalarCall}
    (hcall : call.isBuild = false) :
    (b.after call).Publishes (calls ++ [call]) g ∧ (b.after call).node = b.node
      ∧ (b.after call).classIri = b.classIri := by
  have hpublished : ∀ path, ScalarCall.published b.node path (calls ++ [call])
      = ScalarCall.published b.node path calls := fun path => by
    rw [ScalarCall.published_concat, hcall, if_neg (by simp), List.append_nil]
  have hany : (calls ++ [call]).any ScalarCall.isBuild = calls.any ScalarCall.isBuild := by
    simp [hcall]
  -- The builder stays as it is when the predicates keep what was accepted for them.
  have hkeep : (∀ path, call.accepted? b.node path = none) → b.Publishes (calls ++ [call]) g :=
    fun hnone =>
      ⟨h.keys, fun path => by rw [ScalarCall.held_concat, hnone, Option.none_or, h.values],
        fun path => by rw [hany, hpublished, h.objects]⟩
  rcases hset : call.setting? with _ | ⟨rule, t⟩
  · rw [after, hset]
    exact ⟨hkeep fun path => by rw [ScalarCall.accepted?, hset]; rfl, rfl, rfl⟩
  · have hafter : b.after call = (b.keep .replace rule t).2 := by rw [after, hset]; rfl
    rw [hafter, keep_replace]
    split_ifs with hvalid
    · refine ⟨⟨Assoc.put_keys_nodup h.keys, fun path => ?_, fun path => ?_⟩, rfl, rfl⟩
      · rw [ScalarCall.held_concat, ScalarCall.accepted?, hset, Option.bind_some]
        by_cases hpath : rule.path = path
        · subst hpath
          simp [valuesOf, Assoc.get?_put_self, hvalid]
        · have hother := h.values path
          rw [valuesOf] at hother
          simp [valuesOf, Assoc.get?_put_of_ne (Ne.symm hpath), hpath, hother]
      · rw [hany, hpublished]
        exact h.objects path
    · refine ⟨hkeep fun path => ?_, rfl, rfl⟩
      rw [ScalarCall.accepted?, hset, Option.bind_some, if_neg fun hpath => hvalid hpath.2]

/-- Building adds what is held. -/
theorem build [Platform] (h : b.Publishes calls g) :
    b.Publishes (calls ++ [.build]) (b.graphOver g) where
  keys := h.keys
  values path := by
    rw [ScalarCall.held_concat, ScalarCall.accepted?_of_isBuild rfl, Option.none_or, h.values]
  objects path := by
    rw [b.objects_graphOver g h.keys, ← Rdf.foldl_distinct, h.values, h.objects,
      if_pos (ScalarCall.any_isBuild calls), ScalarCall.published_concat, ScalarCall.isBuild,
      if_pos rfl]
    split_ifs with hbuilt
    · rw [← List.append_assoc, ← Rdf.distinctTerms_append_again (List.subset_append_left _ _),
        distinctTerms, distinctTerms, ← List.foldl_append]
    · rw [ScalarCall.published_eq_nil (by simpa using hbuilt), List.nil_append, distinctTerms]

end Publishes

end Builder

namespace Workbench

open ScalarCall (published held)

variable {name : String} {w : Workbench} {calls : List ScalarCall}

/-- A builder of a workbench has published what was accepted by calls. -/
def Publishes [Platform] (w : Workbench) (name classIri : String) (node : Term)
    (calls : List ScalarCall) :
    Prop :=
  ∃ b a, Assoc.get? name w.builders = some (b, a) ∧ b.classIri = classIri ∧ b.node = node
    ∧ b.Publishes calls (a.graph w.scope)

theorem Publishes.perform [Platform] {classIri : String} {node : Term}
    (h : w.Publishes name classIri node calls) (call : ScalarCall) :
    (w.perform (call.operation name)).2.Publishes name classIri node (calls ++ [call]) := by
  obtain ⟨b, a, hget, hclass, hnode, hb⟩ := h
  have hset : call.isBuild = false →
      (w.put name (b.after call) a).Publishes name classIri node (calls ++ [call]) := by
    intro hcall
    obtain ⟨hafter, hnode', hclass'⟩ := hb.set hcall
    exact ⟨_, _, Assoc.get?_put_self .., hclass'.trans hclass, hnode'.trans hnode, hafter⟩
  cases call with
  | literal rule value datatype lang =>
    simp only [ScalarCall.operation, Workbench.perform, withBuilder, hget, keep,
      Builder.after_literal]
    exact hset rfl
  | node rule value =>
    simp only [ScalarCall.operation, Workbench.perform, withBuilder, hget, keep,
      Builder.after_node]
    exact hset rfl
  | build =>
    simp only [ScalarCall.operation, Workbench.perform, withBuilder, hget]
    refine ⟨_, _, Assoc.get?_put_self .., hclass, hnode, ?_⟩
    have hgraph : (a.build b w.scope).1.graph (a.build b w.scope).2
        = b.graphOver (a.graph w.scope) := by
      rcases a with _ | scope | _ <;> rfl
    exact hgraph ▸ hb.build

theorem Publishes.run [Platform] {classIri : String} {node : Term} : ∀ (more : List ScalarCall)
    {calls : List ScalarCall} {w : Workbench}, w.Publishes name classIri node calls →
      (w.run (more.map (ScalarCall.operation name))).Publishes name classIri node (calls ++ more)
  | [], calls, w, h => by rwa [List.append_nil]
  | call :: more, calls, w, h => by
    have hrest := (h.perform call).run more
    rwa [List.append_assoc] at hrest

/-- The graph that the builder of a name sees. -/
def graphOf (w : Workbench) (name : String) : Graph :=
  ((Assoc.get? name w.builders).map fun e => e.2.graph w.scope).getD .empty

/-- The workbench on which one builder is made and calls are made on it. -/
def afterCalls [Platform] (name className classIri : String) (iri : Value) (joined : Bool)
    (calls : List ScalarCall) : Workbench :=
  (start .empty).run
    (.create name className classIri iri joined :: calls.map (ScalarCall.operation name))

theorem publishes_run [Platform] {iri : Value} {node : Term} {blanks : Nat}
    (hnode : newNode 0 iri = .ok (node, blanks)) (name className classIri : String) (joined : Bool)
    (calls : List ScalarCall) :
    (afterCalls name className classIri iri joined calls).Publishes name classIri node calls := by
  have hcreate : ((start .empty).perform (.create name className classIri iri joined)).2.Publishes
      name classIri node [] := by
    simp only [Workbench.perform, start, hnode]
    refine ⟨_, _, Assoc.get?_put_self .., rfl, rfl, ?_⟩
    cases joined <;> exact .start className classIri node
  exact hcreate.run calls

/-- Right after a build, the objects of a predicate are the class of the builder, if the predicate
is the one for types, and the values that were the last accepted ones at this and the earlier
builds, each at its first build. An accessor reads the earliest of them that it can read. So the
value that was accepted last is one of them, and the only one exactly if all are the same. -/
theorem objects_of_builds [Platform] {iri : Value} {node : Term} {blanks : Nat}
    (hnode : newNode 0 iri = .ok (node, blanks)) (name className classIri : String) (joined : Bool)
    (calls : List ScalarCall) (path : String) :
    let g := (afterCalls name className classIri iri joined (calls ++ [.build])).graphOf name
    let built := Builder.classTerms { className, classIri, node } path
      ++ published node path (calls ++ [.build])
    g.objects node (.iri path) = distinctTerms built
      ∧ (∀ type, (g.literals node path type).head? = built.findSome? type.readTerm?)
      ∧ (g.resources node path).head? = built.find? Term.isResource
      ∧ ∀ t, held node path calls = some t →
        t ∈ built
          ∧ ((∃ o, g.objects node (.iri path) = [o] ∧ o.same t = true)
            ↔ ∀ u ∈ built, u.same t = true) := by
  intro g built
  have hobjects : g.objects node (.iri path) = distinctTerms built := by
    obtain ⟨b, a, hget, hclass, rfl, hb⟩ :=
      publishes_run hnode name className classIri joined (calls ++ [.build])
    have hterms : b.classTerms path
        = Builder.classTerms { className, classIri, node := b.node } path := by
      rw [Builder.classTerms, Builder.classTerms, hclass]
    have hg : g = a.graph (afterCalls name className classIri iri joined
        (calls ++ [.build])).scope := by
      simp only [g, graphOf, hget, Option.map_some, Option.getD_some]
    rw [hg, hb.objects path, if_pos (ScalarCall.any_isBuild calls), hterms]
  refine ⟨hobjects, fun type => ?_, ?_, fun t ht => ?_⟩
  · rw [Graph.literals, List.head?_filterMap, hobjects,
      Rdf.findSome?_distinctTerms type.readTerm?_of_same]
  · rw [Graph.resources, List.head?_filter, hobjects, List.find?_eq_findSome?_guard,
      Rdf.findSome?_distinctTerms fun t u hsame h => ?_, List.find?_eq_findSome?_guard]
    rw [Option.guard_eq_none_iff] at h ⊢
    exact Term.isResource_congr hsame ▸ h
  · have hmem : t ∈ built := List.mem_append_right _ (ScalarCall.mem_published ht)
    exact ⟨hmem, by rw [hobjects, Rdf.distinctTerms_eq_singleton_iff hmem]⟩

/-- A rule for short texts. -/
def shortText : Rule := { name := "p", path := "p", constraints := { maxLength := some 1 } }

section

attribute [local instance] Platform.standard

/-- A value that is refused between two builds changes nothing. -/
theorem refused_value_objects :
    let calls : List ScalarCall :=
      [.literal shortText (.text "A") none none, .build, .literal shortText (.text "BB") none none]
    held (.iri "n") "p" calls = some (.literal ⟨"A", none, none⟩)
      ∧ ∃ o, ((afterCalls "b" "ABuilder" "A" (.text "n") true (calls ++ [.build])).graphOf
        "b").objects (.iri "n") (.iri "p") = [o] ∧ o.same (.literal ⟨"A", none, none⟩) = true := by
  intro calls
  have hheld : held (.iri "n") "p" calls = some (.literal ⟨"A", none, none⟩) := by decide +kernel
  have hbuilt : ∀ u ∈ Builder.classTerms ⟨"ABuilder", "A", .iri "n", []⟩ "p"
      ++ published (.iri "n") "p" (calls ++ [.build]),
      u.same (.literal ⟨"A", none, none⟩) = true := by decide +kernel
  obtain ⟨-, -, -, hlast⟩ :=
    objects_of_builds (rfl : newNode 0 (.text "n") = .ok (.iri "n", 0)) "b" "ABuilder" "A" true
      calls "p"
  exact ⟨hheld, (hlast _ hheld).2.2 hbuilt⟩

/-- A value that replaces one that was built joins it in the scope, and is not the one that is
read. -/
theorem replaced_value_objects :
    let calls : List ScalarCall :=
      [.literal shortText (.text "A") none none, .build, .literal shortText (.text "B") none none]
    let g := (afterCalls "b" "ABuilder" "A" (.text "n") true (calls ++ [.build])).scope.graph
    held (.iri "n") "p" calls = some (.literal ⟨"B", none, none⟩)
      ∧ g.objects (.iri "n") (.iri "p")
        = [.literal ⟨"A", none, none⟩, .literal ⟨"B", none, none⟩]
      ∧ (g.literals (.iri "n") "p" (.scalar .text)).head? = some (.text "A" none) := by
  decide +kernel

end

end Workbench

end ShapeForge
