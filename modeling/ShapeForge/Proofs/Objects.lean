import Mathlib
import ShapeForge.Instance.Builder

/-!
# Objects of a graph

A graph keeps the objects of a subject and a predicate without repetitions, in the order of their
insertion (`Graph.objects_insertAll`), where terms repeat each other if they are the same node.

So what a builder adds to a graph under a predicate are the values that it gathered for it, later
repetitions left out (`Builder.objects_graphOver`), and the class under the predicate for types.
-/

namespace ShapeForge

namespace Rdf

namespace Term

theorem same_iff {a b : Term} : a.same b = true ↔ a.folded = b.folded := by
  simp [same]

theorem text_folded (t : Term) : t.folded.text = t.text := by cases t <;> rfl

theorem isLiteral_folded (t : Term) : t.folded.isLiteral = t.isLiteral := by cases t <;> rfl

theorem same_trans {a b c : Term} (hab : a.same b = true) (hbc : b.same c = true) :
    a.same c = true := by
  rw [same_iff] at hab hbc ⊢
  exact hab.trans hbc

/-- Terms that are the same are the same as the same terms. -/
theorem same_congr {a b : Term} (h : a.same b = true) (c : Term) : a.same c = b.same c := by
  rw [same_iff] at h
  rw [same, same, h]

theorem iri_same_iri {s t : String} : (iri s).same (iri t) = true ↔ s = t := by
  simp [same, folded]

theorem literal_same_literal {a b : Literal} :
    (literal a).same (literal b) = true ↔ a.folded = b.folded := by
  simp [same, folded]

theorem not_iri_same_literal (s : String) (l : Literal) : (iri s).same (literal l) = false := by
  simp [same, folded]

end Term

/-! ## Repetitions -/

theorem foldl_distinct (terms : List Term) : ∀ seen : List Term,
    terms.foldl (fun seen t => if seen.any t.same then seen else seen ++ [t]) seen
      = seen ++ (terms.filter fun t => !seen.any t.same).eraseDupsBy Term.same := by
  induction terms with
  | nil => intro seen; simp
  | cons t terms ih =>
    intro seen
    rw [List.foldl_cons, ih]
    by_cases h : seen.any t.same = true
    · simp [h]
    · rw [if_neg h, List.filter_cons_of_pos (by simpa using h), List.eraseDupsBy_cons,
        List.filter_filter, List.append_assoc, List.singleton_append]
      have hfilter : (terms.filter fun u => !(seen ++ [t]).any u.same)
          = terms.filter fun u => decide (u.same t = false) && !seen.any u.same := by
        refine List.filter_congr fun u _ => ?_
        cases hu : u.same t <;> simp [List.any_append, hu]
      rw [hfilter]

theorem distinctTerms_eq (terms : List Term) :
    distinctTerms terms = terms.eraseDupsBy Term.same := by
  rw [distinctTerms, foldl_distinct]
  simp

theorem length_filter_lt {α : Type} (p : α → Bool) (a : α) (l : List α) :
    (l.filter p).length < (a :: l).length :=
  Nat.lt_succ_of_le (List.length_filter_le p l)

theorem mem_of_mem_eraseDupsBy {α : Type} {r : α → α → Bool} {a : α} :
    ∀ {l : List α}, a ∈ l.eraseDupsBy r → a ∈ l
  | [], h => by simp at h
  | b :: l, h => by
    rw [List.eraseDupsBy_cons, List.mem_cons] at h
    rcases h with rfl | h
    · exact List.mem_cons_self
    · exact List.mem_cons_of_mem _ (List.mem_filter.1 (mem_of_mem_eraseDupsBy h)).1
termination_by l => l.length
decreasing_by exact length_filter_lt _ _ _

theorem mem_of_mem_distinctTerms {terms : List Term} {t : Term} (h : t ∈ distinctTerms terms) :
    t ∈ terms := by
  rw [distinctTerms_eq] at h
  exact mem_of_mem_eraseDupsBy h

/-- Repetitions can be left out before or after a function is applied. -/
theorem eraseDupsBy_map {α β : Type} (f : α → β) (r : β → β → Bool) :
    ∀ l : List α, (l.map f).eraseDupsBy r = (l.eraseDupsBy fun a b => r (f a) (f b)).map f
  | [] => by simp
  | a :: l => by
    rw [List.map_cons, List.eraseDupsBy_cons, List.eraseDupsBy_cons, List.map_cons,
      List.filter_map, ← eraseDupsBy_map f r]
    rfl
termination_by l => l.length
decreasing_by exact length_filter_lt _ _ _

/-! ## Insertion -/

/-- Whether a triple is about a subject and a predicate. -/
def Triple.about (subject predicate : Term) (t : Triple) : Bool :=
  t.subject.same subject && t.predicate.same predicate

theorem Triple.same_of_about {s p : Term} {t u : Triple} (ht : t.about s p = true)
    (hu : u.about s p = true) : t.same u = t.object.same u.object := by
  rw [about, Bool.and_eq_true] at ht hu
  have hs : t.subject.same u.subject = true :=
    Term.same_trans ht.1 ((Term.same_comm _ _).trans hu.1)
  have hp : t.predicate.same u.predicate = true :=
    Term.same_trans ht.2 ((Term.same_comm _ _).trans hu.2)
  rw [same, hs, hp, Bool.true_and, Bool.true_and]

theorem Triple.about_congr {s p : Term} {t u : Triple} (h : t.same u = true) :
    t.about s p = u.about s p := by
  rw [same, Bool.and_eq_true, Bool.and_eq_true] at h
  rw [about, about, Term.same_congr h.1.1, Term.same_congr h.1.2]

namespace Graph

theorem objects_eq (g : Graph) (s p : Term) :
    g.objects s p = (g.triples.filter (Triple.about s p)).map Triple.object := rfl

/-- No object is listed twice. -/
theorem objects_distinct (g : Graph) (s p : Term) :
    (g.objects s p).Pairwise fun a b => a.same b = false := by
  rw [objects_eq, List.pairwise_map]
  refine (g.distinct.filter (Triple.about s p)).imp_of_mem fun ht hu hdiffer => ?_
  rwa [← Triple.same_of_about (List.mem_filter.1 ht).2 (List.mem_filter.1 hu).2]

/-- A triple is in the graph exactly if its object is among those of its subject and predicate. -/
theorem contains_eq_any_object (g : Graph) {t : Triple} {s p : Term} (ht : t.about s p = true) :
    g.contains t = (g.objects s p).any t.object.same := by
  rw [Bool.eq_iff_iff, contains, List.any_eq_true, List.any_eq_true]
  constructor
  · rintro ⟨u, hu, hsame⟩
    have hau : u.about s p = true := (Triple.about_congr hsame).symm.trans ht
    refine ⟨u.object, List.mem_map.2 ⟨u, List.mem_filter.2 ⟨hu, hau⟩, rfl⟩, ?_⟩
    rwa [← Triple.same_of_about ht hau]
  · rintro ⟨o, ho, hsame⟩
    obtain ⟨u, hu, rfl⟩ := List.mem_map.1 ho
    obtain ⟨hmem, hau⟩ := List.mem_filter.1 hu
    exact ⟨u, hmem, (Triple.same_of_about ht hau).trans hsame⟩

/-- A new object goes to the end, unless it is there already. -/
theorem objects_insert (g : Graph) (t : Triple) (s p : Term) :
    (g.insert t).objects s p =
      if t.about s p && !(g.objects s p).any t.object.same then g.objects s p ++ [t.object]
      else g.objects s p := by
  cases ht : t.about s p with
  | false =>
    rw [Bool.false_and, if_neg (by simp), insert]
    split_ifs
    · rfl
    · rw [objects_eq, List.filter_append, List.map_append]
      simp [ht, objects_eq]
  | true =>
    rw [Bool.true_and, ← g.contains_eq_any_object ht, insert]
    by_cases hin : g.contains t = true
    · rw [dif_pos hin, if_neg (by simp [hin])]
    · rw [dif_neg hin, if_pos (by simpa using hin), objects_eq, List.filter_append,
        List.map_append]
      simp [ht, objects_eq]

theorem objects_insertAll (s p : Term) : ∀ (ts : List Triple) (g : Graph),
    (g.insertAll ts).objects s p = g.objects s p
      ++ (((ts.filter (Triple.about s p)).map Triple.object).filter
        fun o => !(g.objects s p).any o.same).eraseDupsBy Term.same := by
  intro ts g
  rw [← foldl_distinct]
  induction ts generalizing g with
  | nil => rfl
  | cons t ts ih =>
    rw [insertAll, List.foldl_cons, ← insertAll, ih, objects_insert]
    cases ht : t.about s p with
    | false => simp [ht]
    | true =>
      rw [List.filter_cons_of_pos ht, List.map_cons, List.foldl_cons]
      cases (g.objects s p).any t.object.same <;> simp

end Graph

end Rdf

/-! ## Builders -/

open Rdf (Graph Term Triple)

namespace Assoc

theorem flatMap_of_key {α : Type} {key : String} :
    ∀ {entries : List (String × List α)}, (entries.map (·.1)).Nodup →
      (entries.flatMap fun e => if e.1 = key then e.2 else []) = (get? key entries).getD []
  | [], _ => rfl
  | (k, v) :: rest, h => by
    rw [List.map_cons, List.nodup_cons] at h
    rw [List.flatMap_cons, flatMap_of_key h.2, get?]
    by_cases hk : k = key
    · subst hk
      simp [get?_eq_none_iff.2 h.1]
    · simp [hk]

end Assoc

namespace Builder

variable (b : Builder) (g : Graph)

/-- The class of a builder, as a value of the predicate for types. -/
def classTerms (predicate : String) : List Term :=
  if predicate = Rdf.rdfType ∧ b.classIri ≠ "" then [.iri b.classIri] else []

theorem objects_triples (h : (b.values.map (·.1)).Nodup) (predicate : String) :
    (b.triples.filter (Triple.about b.node (.iri predicate))).map Triple.object
      = b.classTerms predicate ++ b.valuesOf predicate := by
  have habout : ∀ (key : String) (t : Term),
      Triple.about b.node (.iri predicate) ⟨b.node, .iri key, t⟩ = decide (key = predicate) := by
    intro key t
    rw [Triple.about, Term.same_refl, Bool.true_and, Bool.eq_iff_iff, Term.iri_same_iri,
      decide_eq_true_iff]
  have hentry : ∀ e : String × List Term,
      ((e.2.map fun t => (⟨b.node, .iri e.1, t⟩ : Triple)).filter
        (Triple.about b.node (.iri predicate))).map Triple.object
        = if e.1 = predicate then e.2 else [] := by
    intro e
    rw [List.filter_map, List.map_map]
    have hcomp : (Triple.about b.node (.iri predicate)
        ∘ fun t => (⟨b.node, .iri e.1, t⟩ : Triple)) = fun _ => decide (e.1 = predicate) :=
      funext fun t => habout e.1 t
    rw [hcomp]
    by_cases he : e.1 = predicate <;> simp [he, Function.comp_def]
  rw [triples, List.filter_append, List.map_append]
  congr 1
  · unfold classTerms
    by_cases hc : b.classIri = ""
    · simp [hc]
    · by_cases hp : predicate = Rdf.rdfType
      · subst hp
        simp [hc, habout]
      · simp [hc, hp, habout, Ne.symm hp]
  · rw [List.filter_flatMap, List.map_flatMap]
    simp only [hentry]
    exact Assoc.flatMap_of_key h

/-- The objects of the node of a builder are those of the graph, then the values that the builder
gathered and the graph does not have. -/
theorem objects_graphOver (h : (b.values.map (·.1)).Nodup) (predicate : String) :
    (b.graphOver g).objects b.node (.iri predicate) = g.objects b.node (.iri predicate)
      ++ ((b.classTerms predicate ++ b.valuesOf predicate).filter
        fun o => !(g.objects b.node (.iri predicate)).any o.same).eraseDupsBy Term.same := by
  rw [graphOver, Graph.objects_insertAll, objects_triples b h]

/-- A graph that says nothing about the node of a builder. -/
def Unknown : Prop := ∀ t ∈ g.triples, t.subject.same b.node = false

theorem unknown_empty : b.Unknown .empty := by
  simp [Unknown, Graph.empty]

variable {b g}

theorem Unknown.objects_eq_nil (h : b.Unknown g) (predicate : Term) :
    g.objects b.node predicate = [] := by
  rw [Graph.objects_eq, List.map_eq_nil_iff, List.filter_eq_nil_iff]
  intro t ht
  simp [Triple.about, h t ht]

theorem Unknown.objects_graphOver (hg : b.Unknown g) (h : (b.values.map (·.1)).Nodup)
    (predicate : String) : (b.graphOver g).objects b.node (.iri predicate)
      = Rdf.distinctTerms (b.classTerms predicate ++ b.valuesOf predicate) := by
  rw [b.objects_graphOver g h, hg.objects_eq_nil, Rdf.distinctTerms_eq]
  simp

end Builder

end ShapeForge
