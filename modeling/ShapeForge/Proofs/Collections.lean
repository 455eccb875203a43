import ShapeForge.Proofs.Objects
import ShapeForge.Rdf.Collection

/-!
# Lists of a graph

A list comes to an end after some rests (`Graph.Runs`), or it has no end. The walk through a list
stops at the first node that it has met before and has only so many steps. Both do no harm: nodes
that are met again are on a list without an end (`Graph.Runs.unique`), and a list with an end has no
more rests than the graph has triples (`Graph.Runs.le_left`). So the walk gives the items of every
list that comes to an end, and fails for the others (`Graph.listItems_eq_some_iff`).
-/

namespace ShapeForge.Rdf.Graph

variable {g : Graph}

/-- The node is a list that comes to an end: the number of its rests, and its items. -/
inductive Runs (g : Graph) : Term → ℕ → List Term → Prop
  | last {node : Term} : g.object? node (.iri rdfRest) = none →
    Runs g node 0 (g.object? node (.iri rdfFirst)).toList
  | cell {node rest : Term} {n : ℕ} {items : List Term} :
    g.object? node (.iri rdfRest) = some rest → Runs g rest n items →
    Runs g node (n + 1) ((g.object? node (.iri rdfFirst)).toList ++ items)

/-- The node is a list without an end. -/
def Endless (g : Graph) (node : Term) : Prop := ∀ n items, ¬ g.Runs node n items

theorem object?_congr {a b : Term} (h : a.same b = true) (predicate : Term) :
    g.object? a predicate = g.object? b predicate := by
  have hsubject : ∀ t : Triple, t.subject.same a = t.subject.same b := fun t => by
    rw [Term.same_comm, Term.same_congr h, Term.same_comm]
  simp only [object?, objects, hsubject]

/-- A node is a list in one way only, however it is spelled. -/
theorem Runs.unique {a b : Term} {m n : ℕ} {items items' : List Term} (ha : g.Runs a m items)
    (hb : g.Runs b n items') (hsame : a.same b = true) : m = n ∧ items = items' := by
  induction ha generalizing b n items' with
  | last hend =>
    cases hb with
    | last _ => exact ⟨rfl, by rw [object?_congr hsame]⟩
    | cell hrest _ => simp [object?_congr hsame, hrest] at hend
  | cell hrest _ ih =>
    rw [object?_congr hsame] at hrest
    cases hb with
    | last hend => simp [hrest] at hend
    | cell hrest' hruns =>
      obtain rfl := Option.some.inj (hrest'.symm.trans hrest)
      obtain ⟨rfl, rfl⟩ := ih hruns (Term.same_refl _)
      exact ⟨rfl, by rw [object?_congr hsame]⟩

/-! ## Steps of the walk -/

/-- The triples about other nodes than those that were met. -/
def left (g : Graph) (seen : List Term) : List Triple :=
  g.triples.filter fun t => !seen.any t.subject.same

/-- The nodes that were met have longer lists than what is left. -/
def Longer (g : Graph) (seen : List Term) (n : ℕ) : Prop :=
  ∀ x ∈ seen, ∃ m items, n < m ∧ g.Runs x m items

theorem Longer.cons {seen : List Term} {node : Term} {n : ℕ} {items : List Term}
    (h : g.Longer seen (n + 1)) (hruns : g.Runs node (n + 1) items) :
    g.Longer (node :: seen) n := by
  rw [Longer, List.forall_mem_cons]
  refine ⟨⟨n + 1, items, Nat.lt_succ_self n, hruns⟩, fun x hx => ?_⟩
  obtain ⟨m, items', hm, hx⟩ := h x hx
  exact ⟨m, items', by omega, hx⟩

theorem Longer.any_same {seen : List Term} {node : Term} {n : ℕ} {items : List Term}
    (h : g.Longer seen n) (hruns : g.Runs node n items) : seen.any node.same = false := by
  rw [List.any_eq_false]
  intro x hx hsame
  obtain ⟨m, items', hm, hx⟩ := h x hx
  obtain ⟨rfl, -⟩ := hruns.unique hx hsame
  exact lt_irrefl _ hm

/-- There is a triple with each rest, and no other list has used it. -/
theorem length_left_lt {seen : List Term} {node rest : Term}
    (hrest : g.object? node (.iri rdfRest) = some rest) (hnew : seen.any node.same = false) :
    (g.left (node :: seen)).length < (g.left seen).length := by
  obtain ⟨t, ht, hsubject⟩ : ∃ t ∈ g.triples, t.subject.same node = true := by
    have hmem := List.mem_of_mem_head? hrest
    obtain ⟨t, ht, -⟩ := List.mem_map.1 hmem
    obtain ⟨ht, habout⟩ := List.mem_filter.1 ht
    exact ⟨t, ht, (Bool.and_eq_true_iff.1 habout).1⟩
  have hsplit : g.left (node :: seen) = (g.left seen).filter fun t => !t.subject.same node := by
    simp only [left, List.filter_filter, List.any_cons, Bool.not_or]
  rw [hsplit]
  refine List.length_filter_lt_length_iff_exists.2
    ⟨t, List.mem_filter.2 ⟨ht, ?_⟩, by simp [hsubject]⟩
  have hcongr : seen.any t.subject.same = seen.any node.same :=
    congrArg seen.any (funext (Term.same_congr hsubject))
  rw [hcongr, hnew]
  rfl

theorem Runs.le_left {node : Term} {n : ℕ} {items : List Term} (h : g.Runs node n items) :
    ∀ {seen : List Term}, g.Longer seen n → n ≤ (g.left seen).length := by
  induction h with
  | last _ => exact fun _ => Nat.zero_le _
  | cell hrest hruns ih =>
    intro seen hlonger
    have hcell := Runs.cell hrest hruns
    have hle := ih (hlonger.cons hcell)
    have hlt := length_left_lt hrest (hlonger.any_same hcell)
    omega

theorem walkList_of_runs {node : Term} {n : ℕ} {items : List Term} (h : g.Runs node n items) :
    ∀ {seen : List Term} {fuel : ℕ}, g.Longer seen n → n < fuel →
      g.walkList fuel seen node = some items := by
  induction h with
  | last hend =>
    intro seen fuel _ hfuel
    obtain ⟨fuel, rfl⟩ := Nat.exists_eq_succ_of_ne_zero (by omega : fuel ≠ 0)
    simp [walkList, hend]
  | @cell node rest n items hrest hruns ih =>
    intro seen fuel hlonger hfuel
    obtain ⟨fuel, rfl⟩ := Nat.exists_eq_succ_of_ne_zero (by omega : fuel ≠ 0)
    have hlonger' := hlonger.cons (Runs.cell hrest hruns)
    have hwalk := ih hlonger' (Nat.lt_of_succ_lt_succ hfuel)
    simp [walkList, hrest, hlonger'.any_same hruns, hwalk]

theorem exists_runs_of_walkList : ∀ {fuel : ℕ} {seen : List Term} {node : Term}
    {items : List Term}, g.walkList fuel seen node = some items → ∃ n, g.Runs node n items
  | 0, seen, node, items, h => by simp [walkList] at h
  | fuel + 1, seen, node, items, h => by
    rw [walkList] at h
    rcases hrest : g.object? node (.iri rdfRest) with _ | rest
    · simp only [hrest, Option.some.injEq] at h
      rw [← h]
      exact ⟨0, .last hrest⟩
    · simp only [hrest] at h
      split_ifs at h
      obtain ⟨items', hitems, rfl⟩ := Option.map_eq_some_iff.1 h
      obtain ⟨n, hruns⟩ := exists_runs_of_walkList hitems
      exact ⟨n + 1, .cell hrest hruns⟩

/-- A list is read exactly if it comes to an end, and then all its items are. -/
theorem listItems_eq_some_iff {node : Term} {items : List Term} :
    g.listItems node = some items ↔ ∃ n, g.Runs node n items := by
  refine ⟨exists_runs_of_walkList, ?_⟩
  rintro ⟨n, hruns⟩
  have hlonger : g.Longer [] n := List.forall_mem_nil _
  have hle := hruns.le_left hlonger
  have hall : g.left [] = g.triples := List.filter_eq_self.2 fun _ _ => rfl
  rw [hall] at hle
  exact walkList_of_runs hruns hlonger (Nat.lt_succ_of_le hle)

theorem listItems_eq_none_iff {node : Term} : g.listItems node = none ↔ g.Endless node := by
  simp only [Option.eq_none_iff_forall_ne_some, ne_eq, listItems_eq_some_iff, Endless, not_exists]
  exact forall_comm

end ShapeForge.Rdf.Graph
