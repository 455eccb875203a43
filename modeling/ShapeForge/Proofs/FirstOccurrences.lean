import ShapeForge.Proofs.Objects
import ShapeForge.Shape.Extraction

/-!
# First occurrences

A list without the items that repeat earlier ones, in order, where a relation says what repeats
what (`FirstOccurrences`). Reading one more item adds it at the end, unless it repeats one
(`FirstOccurrences.concat`); so collecting items one by one gives the first occurrences of all
(`FirstOccurrences.foldl`).
-/

namespace ShapeForge

variable {α : Type} {r : α → α → Bool} {xs ys : List α} {x : α}

/-- The relation holds between items that cannot be told apart by it. -/
structure Sameness (r : α → α → Bool) : Prop where
  refl : ∀ a, r a a = true
  congr : ∀ {a b}, r a b = true → r a = r b

theorem sameness_beq : Sameness fun a b : String => a == b where
  refl a := beq_self_eq_true a
  congr h := by rw [beq_iff_eq.1 h]

/-- The items of the first list that repeat no item before them, in order. -/
structure FirstOccurrences (r : α → α → Bool) (xs ys : List α) : Prop where
  first : ∀ y ∈ ys, xs.find? (r y) = some y
  covers : ∀ x ∈ xs, ys.any (r x) = true
  order : ys.Pairwise fun a b => xs.findIdx (r a) < xs.findIdx (r b)

namespace FirstOccurrences

theorem nil : FirstOccurrences r [] [] := ⟨by simp, by simp, .nil⟩

theorem mem (h : FirstOccurrences r xs ys) {y : α} (hy : y ∈ ys) : y ∈ xs :=
  List.mem_of_find?_eq_some (h.first y hy)

/-- No two first occurrences are the same. -/
theorem pairwise (h : FirstOccurrences r xs ys) (hr : Sameness r) :
    ys.Pairwise fun a b => r a b = false := by
  refine h.order.imp fun {a b} hlt => ?_
  by_contra hsame
  rw [Bool.not_eq_false] at hsame
  rw [hr.congr hsame] at hlt
  exact lt_irrefl _ hlt

theorem findIdx_lt (h : FirstOccurrences r xs ys) (hr : Sameness r) {y : α} (hy : y ∈ ys) :
    xs.findIdx (r y) < xs.length :=
  List.findIdx_lt_length_of_exists ⟨y, h.mem hy, hr.refl y⟩

/-- One more item goes to the end, unless it repeats one. -/
theorem concat (h : FirstOccurrences r xs ys) (hr : Sameness r) (x : α) :
    FirstOccurrences r (xs ++ [x]) (if ys.any (r x) then ys else ys ++ [x]) := by
  have hfirst : ∀ y ∈ ys, (xs ++ [x]).find? (r y) = some y := fun y hy => by
    rw [List.find?_append, h.first y hy, Option.some_or]
  have hindex : ∀ y ∈ ys, (xs ++ [x]).findIdx (r y) = xs.findIdx (r y) := fun y hy => by
    rw [List.findIdx_append, if_pos (h.findIdx_lt hr hy)]
  have horder : ys.Pairwise fun a b => (xs ++ [x]).findIdx (r a) < (xs ++ [x]).findIdx (r b) :=
    h.order.imp_of_mem fun {a b} ha hb hlt => by rwa [hindex a ha, hindex b hb]
  split_ifs with hany
  · refine ⟨hfirst, fun z hz => ?_, horder⟩
    rcases List.mem_append.1 hz with hz | hz
    · exact h.covers z hz
    · rwa [List.mem_singleton.1 hz]
  · -- Nothing before the item is the same, since it would be covered by a first occurrence.
    have hnew : ∀ z ∈ xs, r x z = false := by
      intro z hz
      by_contra hsame
      rw [Bool.not_eq_false] at hsame
      rw [hr.congr hsame] at hany
      exact hany (h.covers z hz)
    have hlast : (xs ++ [x]).findIdx (r x) = xs.length := by
      have hxs : xs.findIdx (r x) = xs.length := List.findIdx_eq_length.2 hnew
      rw [List.findIdx_append, hxs, if_neg (lt_irrefl _)]
      simp [hr.refl]
    refine ⟨fun y hy => ?_, fun z hz => ?_, ?_⟩
    · rcases List.mem_append.1 hy with hy | hy
      · exact hfirst y hy
      · rw [List.mem_singleton.1 hy, List.find?_append,
          List.find?_eq_none.2 fun z hz => by simp [hnew z hz]]
        simp [hr.refl]
    · rw [List.any_append]
      rcases List.mem_append.1 hz with hz | hz
      · rw [h.covers z hz, Bool.true_or]
      · rw [List.mem_singleton.1 hz]
        simp [hr.refl]
    · refine List.pairwise_append.2 ⟨horder, List.pairwise_singleton _ _, fun a ha b hb => ?_⟩
      rw [List.mem_singleton.1 hb, hlast, hindex a ha]
      exact h.findIdx_lt hr ha

/-- Items that are collected one by one. -/
theorem foldl (hr : Sameness r) : ∀ (rest : List α) {xs ys : List α}, FirstOccurrences r xs ys →
    FirstOccurrences r (xs ++ rest)
      (rest.foldl (fun seen x => if seen.any (r x) then seen else seen ++ [x]) ys)
  | [], xs, ys, h => by rwa [List.append_nil]
  | x :: rest, xs, ys, h => by
    rw [List.append_cons, List.foldl_cons]
    exact foldl hr rest (h.concat hr x)

/-- The first occurrences in the front part of a list. -/
theorem filter_front {zs : List α} (h : FirstOccurrences r (xs ++ zs) ys) (hr : Sameness r) :
    FirstOccurrences r xs (ys.filter fun y => xs.any (r y)) := by
  have hfront {y : α} (hy : y ∈ ys.filter fun y => xs.any (r y)) :
      y ∈ ys ∧ xs.findIdx (r y) < xs.length := by
    rw [List.mem_filter, List.any_eq_true] at hy
    exact ⟨hy.1, List.findIdx_lt_length_of_exists hy.2⟩
  refine ⟨fun y hy => ?_, fun x hx => ?_, ?_⟩
  · obtain ⟨hmem, hlt⟩ := hfront hy
    have hfound := h.first y hmem
    obtain ⟨z, hz⟩ := Option.isSome_iff_exists.1
      (List.find?_isSome.2 (List.findIdx_lt_length.1 hlt))
    rwa [List.find?_append, hz, Option.some_or, ← hz] at hfound
  · obtain ⟨y, hy, hxy⟩ := List.any_eq_true.1 (h.covers x (List.mem_append_left zs hx))
    have hyx : r y x = true := hr.congr hxy ▸ hr.refl x
    exact List.any_eq_true.2
      ⟨y, List.mem_filter.2 ⟨hy, List.any_eq_true.2 ⟨x, hx, hyx⟩⟩, hxy⟩
  · refine (h.order.filter _).imp_of_mem fun {a b} ha hb hlt => ?_
    rwa [List.findIdx_append, if_pos (hfront ha).2, List.findIdx_append,
      if_pos (hfront hb).2] at hlt

end FirstOccurrences

namespace Rdf

theorem sameness_same : Sameness Term.same := ⟨Term.same_refl, fun h => funext (Term.same_congr h)⟩

theorem distinctTerms_firstOccurrences (terms : List Term) :
    FirstOccurrences Term.same terms (distinctTerms terms) :=
  FirstOccurrences.nil.foldl sameness_same terms

end Rdf

theorem Shape.distinct_firstOccurrences (texts : List String) :
    FirstOccurrences (fun a b => a == b) texts (distinct texts) := by
  have h := FirstOccurrences.nil.foldl sameness_beq texts
  simpa [distinct, List.contains_eq_any_beq] using h

end ShapeForge
