import ShapeForge.Proofs.EnumerationOrder
import ShapeForge.Proofs.FirstOccurrences
import ShapeForge.Wrapper.Handle

/-!
# What no accessor reads

The extras of a node are gathered in one walk over its triples, predicate by predicate. The walk
meets the triples of one predicate as they are read by themselves (`Graph.byPredicate_about`), and
grouping keeps their order (`Extras.valuesAt_foldl`). So the extras of a predicate are its values if
it is not known, and nothing if it is (`Extras.values_gather`). The known predicates and the extras
together have every triple of the node once (`Extras.triples_perm`).

Extras that were gathered stay as they are, whatever happens to the graph (`Handle.bags_of_some`).
-/

namespace ShapeForge

open Rdf (Graph Term Triple)

namespace Rdf

/-! ## Two ways through the triples of a node -/

theorem flatMap_of_same {α : Type} (p : Term) (found : List α) :
    ∀ {terms : List Term}, (terms.Pairwise fun a b => a.same b = false) →
      (terms.flatMap fun q => if q.same p then found else [])
        = if terms.any fun q => q.same p then found else []
  | [], _ => rfl
  | q :: terms, h => by
    obtain ⟨hhead, htail⟩ := List.pairwise_cons.1 h
    rw [List.flatMap_cons, List.any_cons, flatMap_of_same p found htail]
    cases hq : q.same p with
    | false => simp
    | true =>
      have hnone : (terms.any fun r => r.same p) = false := by
        refine List.any_eq_false.2 fun r hr hsame => ?_
        have hqr := hhead r hr
        rw [Term.same_congr hq, Term.same_comm, hsame] at hqr
        cases hqr
      simp [hnone]

namespace Graph

variable (g : Graph) (node : Term)

/-- The group of one predicate has all triples of another or none of them. -/
theorem filter_group (p q : Term) :
    ((g.triples.filter fun t => t.subject.same node && t.predicate.same q).filter
      fun t => t.predicate.same p)
      = if q.same p then g.triples.filter (Triple.about node p) else [] := by
  rw [List.filter_filter]
  cases hq : q.same p with
  | false =>
    rw [if_neg (by simp), List.filter_eq_nil_iff]
    intro t _ ht
    simp only [Bool.and_eq_true] at ht
    rw [← Term.same_congr ht.2.2, ht.1] at hq
    cases hq
  | true =>
    rw [if_pos rfl]
    refine List.filter_congr fun t _ => ?_
    rw [Term.same_comm t.predicate q, Term.same_congr hq, Term.same_comm p]
    simp [Triple.about, Bool.and_left_comm]

/-- The walk over all triples of a node meets those of one predicate in their own order. -/
theorem byPredicate_about (p : Term) :
    ((g.byPredicate node).filter fun t => t.predicate.same p)
      = g.triples.filter (Triple.about node p) := by
  have hfirst := distinctTerms_firstOccurrences
    ((g.triples.filter fun t => t.subject.same node).map Triple.predicate)
  rw [byPredicate, predicates, List.filter_flatMap]
  simp only [filter_group]
  rw [flatMap_of_same p _ (hfirst.pairwise sameness_same)]
  split_ifs with hany
  · rfl
  · -- A predicate of the node is the same as one that the walk comes to.
    symm
    rw [List.filter_eq_nil_iff]
    intro t ht habout
    rw [Triple.about, Bool.and_eq_true] at habout
    have hmem : t.predicate ∈ (g.triples.filter fun t => t.subject.same node).map
        Triple.predicate := List.mem_map.2 ⟨t, List.mem_filter.2 ⟨ht, habout.1⟩, rfl⟩
    obtain ⟨q, hq, hsame⟩ := List.any_eq_true.1 (hfirst.covers _ hmem)
    refine hany (List.any_eq_true.2 ⟨q, hq, ?_⟩)
    rw [← Term.same_congr hsame]
    exact habout.2

theorem mem_byPredicate {t : Triple} (ht : t ∈ g.byPredicate node) :
    t ∈ g.triples ∧ t.subject.same node = true := by
  obtain ⟨p, -, hmem⟩ := List.mem_flatMap.1 ht
  rw [List.mem_filter, Bool.and_eq_true] at hmem
  exact ⟨hmem.1, hmem.2.1⟩

end Graph

end Rdf

/-! ## Groups -/

namespace Extras

/-- The values in the group of a predicate. -/
def valuesAt (groups : List (Term × List Term)) (p : Term) : List Term :=
  ((groups.find? fun e => e.1.same p).map (·.2)).getD []

theorem valuesAt_cons (e : Term × List Term) (groups : List (Term × List Term)) (p : Term) :
    valuesAt (e :: groups) p = if e.1.same p then e.2 else valuesAt groups p := by
  cases h : e.1.same p <;> simp [valuesAt, h]

theorem valuesAt_file (q v p : Term) : ∀ groups : List (Term × List Term),
    valuesAt (file q v groups) p
      = if q.same p then valuesAt groups p ++ [v] else valuesAt groups p
  | [] => by cases h : q.same p <;> simp [file, valuesAt, h]
  | (r, values) :: rest => by
    have ih := valuesAt_file q v p rest
    rw [file]
    split_ifs with hr hp hp
    · rw [valuesAt_cons, valuesAt_cons]
      simp [Term.same_congr hr, hp]
    · rw [valuesAt_cons, valuesAt_cons]
      simp [Term.same_congr hr, hp]
    · have hrp : r.same p = false := by
        rw [Term.same_comm, ← Term.same_congr hp, Term.same_comm]
        simpa using hr
      rw [valuesAt_cons, valuesAt_cons, ih, if_pos hp]
      simp [hrp]
    · rw [valuesAt_cons, valuesAt_cons, ih, if_neg hp]

theorem keys_file (q v : Term) : ∀ groups : List (Term × List Term),
    (file q v groups).map (·.1)
      = if (groups.map (·.1)).any q.same then groups.map (·.1) else groups.map (·.1) ++ [q]
  | [] => rfl
  | (r, values) :: rest => by
    have ih := keys_file q v rest
    rw [file]
    split_ifs with hr hany hany
    · rfl
    · rw [List.map_cons, List.any_cons, Term.same_comm q, hr] at hany
      simp at hany
    · rw [Term.same_comm] at hr
      simp only [List.map_cons, List.any_cons, Bool.or_eq_true] at hany
      rw [List.map_cons, ih, if_pos (hany.resolve_left hr), List.map_cons]
    · simp only [List.map_cons, List.any_cons, Bool.or_eq_true, not_or] at hany
      rw [List.map_cons, ih, if_neg hany.2, List.map_cons, List.cons_append]

/-- Triples that are put into groups one by one stand there in their order. -/
theorem valuesAt_foldl (p : Term) : ∀ (ts : List Triple) (groups : List (Term × List Term)),
    valuesAt (ts.foldl (fun groups t => file t.predicate t.object groups) groups) p
      = valuesAt groups p ++ (ts.filter fun t => t.predicate.same p).map Triple.object
  | [], groups => by simp
  | t :: ts, groups => by
    rw [List.foldl_cons, valuesAt_foldl p ts, valuesAt_file]
    cases ht : t.predicate.same p <;> simp [ht]

/-- There is one group for each predicate, in the order of their first triples. -/
theorem keys_foldl : ∀ (ts : List Triple) (groups : List (Term × List Term)),
    (ts.foldl (fun groups t => file t.predicate t.object groups) groups).map (·.1)
      = (ts.map Triple.predicate).foldl
        (fun seen p => if seen.any p.same then seen else seen ++ [p]) (groups.map (·.1))
  | [], groups => rfl
  | t :: ts, groups => by
    rw [List.foldl_cons, keys_foldl ts, keys_file, List.map_cons, List.foldl_cons]

variable (g : Graph) (node : Term) (known : List String)

/-- The triples of a node with a predicate that is not known. -/
def unknownTriples : List Triple :=
  (g.byPredicate node).filter fun t => !known.any fun iri => t.predicate.same (.iri iri)

theorem keys_gather : (gather g node known).groups.map (·.1)
    = Rdf.distinctTerms ((unknownTriples g node known).map Triple.predicate) :=
  keys_foldl _ _

theorem values_eq (p : String) : (gather g node known).values p
    = ((unknownTriples g node known).filter fun t => t.predicate.same (.iri p)).map
        Triple.object :=
  (valuesAt_foldl (.iri p) _ []).trans (List.nil_append _)

/-- The extras of a predicate are its values, unless it is known. -/
theorem values_gather (p : String) : (gather g node known).values p
    = if p ∈ known then [] else g.objects node (.iri p) := by
  have hknown : ∀ t : Triple, t.predicate.same (.iri p) = true →
      (known.any fun iri => t.predicate.same (.iri iri)) = decide (p ∈ known) := by
    intro t ht
    simp only [Term.same_congr ht]
    rw [Bool.eq_iff_iff, List.any_eq_true, decide_eq_true_iff]
    simp [Term.iri_same_iri]
  have hfilter : ((unknownTriples g node known).filter fun t => t.predicate.same (.iri p))
      = ((g.byPredicate node).filter fun t => t.predicate.same (.iri p)).filter
        fun _ => !decide (p ∈ known) := by
    rw [unknownTriples, List.filter_filter, List.filter_filter]
    refine List.filter_congr fun t _ => ?_
    cases ht : t.predicate.same (.iri p) with
    | false => simp
    | true => rw [hknown t ht, Bool.true_and, Bool.and_true]
  rw [values_eq, hfilter, g.byPredicate_about node, Graph.objects_eq]
  split_ifs with hp <;> simp [hp]

theorem values_ne_nil_iff (p : String) : (gather g node known).values p ≠ [] ↔
    ∃ t ∈ unknownTriples g node known, t.predicate.same (.iri p) = true := by
  rw [values_eq, ne_eq, List.map_eq_nil_iff, List.filter_eq_nil_iff]
  simp

theorem contains_eq (p : String) : (gather g node known).contains p
    = ((gather g node known).groups.map (·.1)).any fun q => q.same (.iri p) := by
  rw [List.any_map]
  rfl

theorem contains_iff (p : String) :
    (gather g node known).contains p = true ↔ (gather g node known).values p ≠ [] := by
  have hfirst := Rdf.distinctTerms_firstOccurrences
    ((unknownTriples g node known).map Triple.predicate)
  rw [contains_eq, keys_gather, values_ne_nil_iff, List.any_eq_true]
  constructor
  · rintro ⟨q, hq, hsame⟩
    obtain ⟨t, ht, rfl⟩ := List.mem_map.1 (Rdf.mem_of_mem_distinctTerms hq)
    exact ⟨t, ht, hsame⟩
  · rintro ⟨t, ht, hsame⟩
    obtain ⟨q, hq, hcover⟩ := List.any_eq_true.1 (hfirst.covers _ (List.mem_map_of_mem ht))
    exact ⟨q, hq, by rw [← Term.same_congr hcover, hsame]⟩

end Extras

/-! ## Predicates -/

/-- The predicates of a graph are IRIs, as RDF has it. -/
def Rdf.Graph.IriPredicates (g : Graph) : Prop := ∀ t ∈ g.triples, ∃ iri, t.predicate = .iri iri

namespace Extras

variable {g : Graph} {node : Term} {known : List String}

theorem mem_predicates {p : Term} :
    p ∈ (gather g node known).predicates ↔ p ∈ (gather g node known).groups.map (·.1) :=
  (List.mergeSort_perm _ _).mem_iff

theorem exists_iri_of_mem_predicates (hg : g.IriPredicates) {p : Term}
    (hp : p ∈ (gather g node known).predicates) :
    ∃ iri, p = .iri iri ∧ (gather g node known).values iri ≠ [] := by
  rw [mem_predicates, keys_gather] at hp
  obtain ⟨t, ht, rfl⟩ := List.mem_map.1 (Rdf.mem_of_mem_distinctTerms hp)
  obtain ⟨iri, hiri⟩ := hg t (g.mem_byPredicate node (List.mem_filter.1 ht).1).1
  refine ⟨iri, hiri, (values_ne_nil_iff g node known iri).2 ⟨t, ht, ?_⟩⟩
  rw [hiri]
  exact Term.same_refl _

/-- The predicates of the extras are those that are not known. -/
theorem mem_predicates_iff (hg : g.IriPredicates) {p : Term} :
    p ∈ (gather g node known).predicates ↔
      ∃ iri, p = .iri iri ∧ iri ∉ known ∧ g.objects node (.iri iri) ≠ [] := by
  have hvalues : ∀ iri, (gather g node known).values iri ≠ [] ↔
      iri ∉ known ∧ g.objects node (.iri iri) ≠ [] := by
    intro iri
    rw [values_gather]
    split_ifs with h <;> simp [h]
  simp only [← hvalues]
  constructor
  · exact exists_iri_of_mem_predicates hg
  · rintro ⟨iri, rfl, hiri⟩
    rw [← contains_iff, contains_eq, List.any_eq_true] at hiri
    obtain ⟨q, hq, hsame⟩ := hiri
    -- The key is an IRI too, so it is not only the same node but the same term.
    obtain ⟨iri', rfl, -⟩ := exists_iri_of_mem_predicates hg (mem_predicates.2 hq)
    rw [← Term.iri_same_iri.1 hsame]
    exact mem_predicates.2 hq

theorem nodup_predicates (g : Graph) (node : Term) (known : List String) :
    (gather g node known).predicates.Nodup := by
  refine (List.mergeSort_perm _ _).nodup_iff.2 ?_
  rw [keys_gather]
  have hpairwise := (Rdf.distinctTerms_firstOccurrences
    ((unknownTriples g node known).map Triple.predicate)).pairwise Rdf.sameness_same
  refine hpairwise.imp fun {a b} hab heq => ?_
  rw [heq, Term.same_refl] at hab
  cases hab

/-- No two predicates have the same text, and they come in the order of their texts. -/
theorem predicates_increasing (hg : g.IriPredicates) :
    (gather g node known).predicates.Pairwise fun p q => p.text < q.text := by
  have hsorted : (gather g node known).predicates.Pairwise fun p q => p.text ≤ q.text := by
    refine (List.pairwise_mergeSort ?_ ?_ _).imp fun h => of_decide_eq_true h
    · intro a b c hab hbc
      exact decide_eq_true ((of_decide_eq_true hab).trans (of_decide_eq_true hbc))
    · intro a b
      rw [Bool.or_eq_true, decide_eq_true_iff, decide_eq_true_iff]
      exact String.le_total _ _
  refine (hsorted.and (nodup_predicates g node known)).imp_of_mem fun {p q} hp hq h => ?_
  obtain ⟨a, rfl, -⟩ := exists_iri_of_mem_predicates hg hp
  obtain ⟨b, rfl, -⟩ := exists_iri_of_mem_predicates hg hq
  exact lt_of_le_of_ne h.1 fun heq => h.2 (congrArg Term.iri heq)

/-! ## Every triple once -/

theorem flatMap_filter_perm {α : Type} (key : α → String) :
    ∀ {keys : List String} {items : List α}, keys.Nodup → (∀ a ∈ items, key a ∈ keys) →
      (keys.flatMap fun k => items.filter fun a => key a == k).Perm items
  | [], items, _, hcover => by
    rw [List.eq_nil_iff_forall_not_mem.2 fun a ha => List.not_mem_nil (hcover a ha)]
    exact .refl _
  | k :: keys, items, hnodup, hcover => by
    obtain ⟨hk, hkeys⟩ := List.nodup_cons.1 hnodup
    -- The other keys find nothing that has the first one.
    have hrest : (keys.flatMap fun k' => items.filter fun a => key a == k')
        = keys.flatMap fun k' => (items.filter fun a => !(key a == k)).filter
          fun a => key a == k' := by
      refine List.flatMap_congr fun k' hk' => ?_
      rw [List.filter_filter]
      refine List.filter_congr fun a _ => ?_
      cases ha : key a == k' with
      | false => rfl
      | true =>
        have hne : key a ≠ k := fun he => hk (he ▸ beq_iff_eq.1 ha ▸ hk')
        simp [hne]
    rw [List.flatMap_cons, hrest]
    refine ((flatMap_filter_perm key hkeys fun a ha => ?_).append_left _).trans
      (List.filter_append_perm _ items)
    rw [List.mem_filter] at ha
    refine (List.mem_cons.1 (hcover a ha.1)).resolve_left fun he => ?_
    simp [he] at ha

/-- The triples of a node as pairs of a predicate and an object. -/
def pairsOf (g : Graph) (node : Term) : List (String × Term) :=
  (g.triples.filter fun t => t.subject.same node).map fun t => (t.predicate.text, t.object)

theorem map_objects (hg : g.IriPredicates) (node : Term) (p : String) :
    (g.objects node (.iri p)).map (Prod.mk p) = (pairsOf g node).filter fun e => e.1 == p := by
  have hsame : g.triples.filter (Triple.about node (.iri p))
      = g.triples.filter fun t => t.predicate.text == p && t.subject.same node := by
    refine List.filter_congr fun t ht => ?_
    obtain ⟨iri, hiri⟩ := hg t ht
    rw [Triple.about, Bool.and_comm, hiri]
    congr 1
    rw [Bool.eq_iff_iff, Term.iri_same_iri, beq_iff_eq]
    rfl
  rw [Graph.objects_eq, hsame, pairsOf, List.filter_map, List.filter_filter, List.map_map]
  refine List.map_congr_left fun t ht => ?_
  rw [List.mem_filter, Bool.and_eq_true, beq_iff_eq] at ht
  simp [ht.2.1]

theorem map_values (hg : g.IriPredicates) {p : Term} (hp : p ∈ (gather g node known).predicates) :
    ((gather g node known).values p.text).map (Prod.mk p.text)
      = (pairsOf g node).filter fun e => e.1 == p.text := by
  obtain ⟨iri, rfl, hfree, -⟩ := (mem_predicates_iff hg).1 hp
  rw [values_gather, ← map_objects hg]
  exact congrArg _ (if_neg hfree)

theorem nodup_known_predicates (hg : g.IriPredicates) :
    (known.dedup ++ (gather g node known).predicates.map Term.text).Nodup := by
  refine List.Nodup.append (List.nodup_dedup _) ?_ fun p hp hq => ?_
  · exact List.pairwise_map.2 ((predicates_increasing hg).imp ne_of_lt)
  · obtain ⟨q, hmem, rfl⟩ := List.mem_map.1 hq
    obtain ⟨iri, rfl, hfree, -⟩ := (mem_predicates_iff hg).1 hmem
    exact hfree (List.mem_dedup.1 hp)

theorem mem_known_or_predicates (hg : g.IriPredicates) {e : String × Term}
    (he : e ∈ pairsOf g node) :
    e.1 ∈ known.dedup ++ (gather g node known).predicates.map Term.text := by
  obtain ⟨t, -, rfl⟩ := List.mem_map.1 he
  rw [List.mem_append, List.mem_dedup]
  by_cases hknown : t.predicate.text ∈ known
  · exact .inl hknown
  · -- The triple itself is among the values that are read.
    have hvalue : (t.predicate.text, t.object)
        ∈ (g.objects node (.iri t.predicate.text)).map (Prod.mk t.predicate.text) := by
      rw [map_objects hg]
      exact List.mem_filter.2 ⟨he, beq_self_eq_true _⟩
    have hread : g.objects node (.iri t.predicate.text) ≠ [] :=
      List.map_eq_nil_iff.not.1 (List.ne_nil_of_mem hvalue)
    exact .inr (List.mem_map.2 ⟨_, (mem_predicates_iff hg).2 ⟨_, rfl, hknown, hread⟩, rfl⟩)

/-- The known predicates and the extras have every triple of the node, each once. -/
theorem triples_perm (hg : g.IriPredicates) :
    ((known.dedup.flatMap fun p => (g.objects node (.iri p)).map (Prod.mk p))
        ++ (gather g node known).predicates.flatMap fun p =>
          ((gather g node known).values p.text).map (Prod.mk p.text)).Perm
      ((g.triples.filter fun t => t.subject.same node).map
        fun t => (t.predicate.text, t.object)) := by
  have hextras : ((gather g node known).predicates.flatMap fun p =>
        ((gather g node known).values p.text).map (Prod.mk p.text))
      = ((gather g node known).predicates.map Term.text).flatMap fun p =>
        (pairsOf g node).filter fun e => e.1 == p := by
    rw [List.flatMap_map]
    exact List.flatMap_congr fun p hp => map_values hg hp
  simp only [map_objects hg]
  rw [hextras, ← List.flatMap_append]
  exact flatMap_filter_perm Prod.fst (nodup_known_predicates hg) fun e he =>
    mem_known_or_predicates hg he

end Extras

/-! ## Changes of the graph -/

/-- A change of a graph. -/
inductive Rdf.Edit where
  | insert (t : Triple)
  | erase (subject predicate : Term) (object : Option Term)

def Rdf.Graph.edit (g : Graph) : Rdf.Edit → Graph
  | .insert t => g.insert t
  | .erase subject predicate object => g.erase subject predicate object

open Rdf (Edit)

namespace Handle

/-- The extras of a handle each time they are used, while the graph changes in between. -/
def bags (h : Handle) (g : Graph) : List (List Edit) → List Extras
  | [] => []
  | edits :: later =>
    let g' := edits.foldl Graph.edit g
    (h.useExtras g').1 :: (h.useExtras g').2.bags g' later

variable {h : Handle} {e : Extras}

theorem useExtras_of_some (he : h.extras = some e) (g : Graph) : h.useExtras g = (e, h) := by
  rw [useExtras, he]

theorem bags_of_some (he : h.extras = some e) : ∀ (changes : List (List Edit)) (g : Graph),
    h.bags g changes = List.replicate changes.length e
  | [], g => rfl
  | edits :: later, g => by
    rw [bags, useExtras_of_some he]
    exact congrArg (e :: ·) (bags_of_some he later _)

/-- At their first use, the extras of a handle are the triples of its node with a predicate that is
not known: the predicates in the order of their texts, and the values as they are read. Together
with the values of the known predicates they are all triples of the node, each once. They stay the
same at every later use, however the graph changes. -/
theorem extras_of_first_use {g : Graph} (hg : g.IriPredicates) (hnone : h.extras = none) :
    ∃ e after, h.useExtras g = (e, after)
      ∧ e.predicates.Pairwise (fun p q => p.text < q.text)
      ∧ (∀ p, p ∈ e.predicates ↔ ∃ iri, p = .iri iri ∧ iri ∉ h.known ∧ h.values g iri ≠ [])
      ∧ (∀ p, p ∉ h.known → h.values g p ≠ [] → e.contains p = true
        ∧ e.values p = h.values g p
        ∧ e.literals p = (h.values g p).filter Term.isLiteral
        ∧ e.iris p = (h.values g p).filter Term.isIri)
      ∧ (∀ p, p ∈ h.known ∨ h.values g p = [] → e.contains p = false ∧ e.values p = [])
      ∧ ((h.known.dedup.flatMap fun p => (h.values g p).map (Prod.mk p))
          ++ e.predicates.flatMap fun p => (e.values p.text).map (Prod.mk p.text)).Perm
        ((g.triples.filter fun t => t.subject.same h.node).map
          fun t => (t.predicate.text, t.object))
      ∧ ∀ changes, after.bags g changes = List.replicate changes.length e := by
  have hvalues := Extras.values_gather g h.node h.known
  have hcontains := Extras.contains_iff g h.node h.known
  refine ⟨Extras.gather g h.node h.known,
    { h with extras := some (Extras.gather g h.node h.known) }, ?_,
    Extras.predicates_increasing hg, fun p => Extras.mem_predicates_iff hg, ?_, ?_,
    Extras.triples_perm hg, fun changes => bags_of_some rfl changes g⟩
  · rw [useExtras, hnone]
  · intro p hfree hsome
    have hp : (Extras.gather g h.node h.known).values p = h.values g p :=
      (hvalues p).trans (if_neg hfree)
    refine ⟨(hcontains p).2 (by rwa [hp]), hp, ?_, ?_⟩
    · rw [Extras.literals, hp]
    · rw [Extras.iris, hp]
  · intro p hp
    have hnil : (Extras.gather g h.node h.known).values p = [] := by
      rw [hvalues]
      split_ifs with hknown
      · rfl
      · exact hp.resolve_left hknown
    refine ⟨?_, hnil⟩
    rw [← Bool.not_eq_true, hcontains, hnil]
    simp

/-- A node with a known predicate and two others, one of them with two values. -/
def labelledGraph : Graph := Graph.ofList [
  ⟨.iri "n", .iri "q", .literal ⟨"one", none, some "en"⟩⟩,
  ⟨.iri "n", .iri "p", .iri "m"⟩,
  ⟨.iri "m", .iri "q", .iri "n"⟩,
  ⟨.iri "n", .iri "label", .literal ⟨"n", none, none⟩⟩,
  ⟨.iri "n", .iri "q", .iri "m"⟩]

def labelledNode : Handle := { node := .iri "n", known := ["label"] }

/-- The extras of the node are read, and then again after their values were removed. -/
theorem labelledNode_extras : labelledGraph.IriPredicates ∧ labelledNode.extras = none
    ∧ ∃ e after, labelledNode.useExtras labelledGraph = (e, after)
      ∧ e.predicates.Pairwise (fun p q => p.text < q.text)
      ∧ Term.iri "p" ∈ e.predicates ∧ Term.iri "q" ∈ e.predicates
      ∧ e.values "q" = [.literal ⟨"one", none, some "en"⟩, .iri "m"] ∧ e.iris "q" = [.iri "m"]
      ∧ e.contains "label" = false
      ∧ after.bags labelledGraph [[.erase (.iri "n") (.iri "q") none], []] = [e, e] := by
  have hg : labelledGraph.IriPredicates := by
    have hall : (labelledGraph.triples.all fun t => t.predicate.isIri) = true := by decide +kernel
    intro t ht
    have hiri := List.all_eq_true.1 hall t ht
    rcases hp : t.predicate with iri | label | l
    · exact ⟨iri, rfl⟩
    · simp [hp, Term.isIri] at hiri
    · simp [hp, Term.isIri] at hiri
  have hp : labelledNode.values labelledGraph "p" ≠ [] := by decide +kernel
  have hq : labelledNode.values labelledGraph "q"
      = [.literal ⟨"one", none, some "en"⟩, .iri "m"] := by decide +kernel
  obtain ⟨e, after, huse, hsorted, hmem, hfree, hknown, -, hbags⟩ :=
    extras_of_first_use hg (rfl : labelledNode.extras = none)
  obtain ⟨-, hvalues, -, hiris⟩ := hfree "q" (by decide) (by simp [hq])
  rw [hq] at hvalues hiris
  exact ⟨hg, rfl, e, after, huse, hsorted, (hmem _).2 ⟨"p", rfl, by decide, hp⟩,
    (hmem _).2 ⟨"q", rfl, by decide, by simp [hq]⟩, hvalues, hiris,
    (hknown "label" (.inl (by decide))).1, hbags _⟩

end Handle

end ShapeForge
