import ShapeForge.Instance.Workbench
import ShapeForge.Platform.Standard
import ShapeForge.Proofs.FirstOccurrences

/-!
# A scope that builders share

Whatever is done at a workbench, only building changes the shared scope, and only by what the
builder holds at that time (`Workbench.scope_perform`). So after a run the scope holds what it
started with and what the builders held whenever they were built (`Workbench.holds_run`), and its
instances are the built nodes in the order of their first builds.

A builder that is built again changes nothing unless something was set in between, whatever else
was done (`Workbench.scope_rebuild`).
-/

namespace ShapeForge

open Rdf (Graph Term Triple)

/-! ## Triples of a graph -/

namespace Rdf

theorem Triple.same_refl (t : Triple) : t.same t = true := by simp [same, Term.same_refl]

theorem Triple.same_congr {t u : Triple} (h : t.same u = true) (v : Triple) :
    t.same v = u.same v := by
  simp only [same, Bool.and_eq_true] at h
  rw [same, same, Term.same_congr h.1.1, Term.same_congr h.1.2, Term.same_congr h.2]

namespace Graph

variable (g : Graph)

theorem contains_congr {t u : Triple} (h : t.same u = true) : g.contains t = g.contains u :=
  congrArg g.triples.any (funext (Triple.same_congr h))

theorem contains_insert (t u : Triple) :
    (g.insert t).contains u = (g.contains u || u.same t) := by
  rw [insert]
  split_ifs with ht
  · -- A triple that is the same as one that is there is there too.
    cases hu : u.same t with
    | false => simp
    | true => rw [g.contains_congr hu, ht, Bool.or_true]
  · simp [contains, List.any_append]

theorem contains_insertAll (u : Triple) : ∀ (ts : List Triple) (g : Graph),
    (g.insertAll ts).contains u = (g.contains u || ts.any u.same)
  | [], g => by simp [insertAll]
  | t :: ts, g => by
    have ih := contains_insertAll u ts (g.insert t)
    rw [insertAll] at ih ⊢
    rw [List.foldl_cons, ih, contains_insert, List.any_cons, Bool.or_assoc]

theorem prefix_insertAll : ∀ (ts : List Triple) (g : Graph),
    g.triples <+: (g.insertAll ts).triples
  | [], g => List.prefix_refl _
  | t :: ts, g => by
    have hfirst : g.triples <+: (g.insert t).triples := by
      rw [insert]
      split_ifs
      · exact List.prefix_refl _
      · exact List.prefix_append _ _
    exact hfirst.trans (prefix_insertAll ts (g.insert t))

theorem insertAll_of_contains : ∀ {ts : List Triple}, (∀ t ∈ ts, g.contains t = true) →
    g.insertAll ts = g
  | [], _ => rfl
  | t :: ts, h => by
    rw [List.forall_mem_cons] at h
    rw [insertAll, List.foldl_cons, insert, dif_pos h.1]
    exact insertAll_of_contains h.2

end Graph

end Rdf

/-! ## What a scope holds -/

/-- A scope that started with a graph holds what builders held when they were built, and lists
their nodes in the order of the first builds. -/
structure Scope.Holds (g : Graph) (builds : List Builder) (s : Scope) : Prop where
  instances : FirstOccurrences Term.same (builds.map Builder.node) s.instances
  graph : ∀ t, s.graph.contains t = true ↔
    g.contains t = true ∨ ∃ b ∈ builds, b.triples.any t.same = true

namespace Scope

variable {g : Graph} {builds : List Builder} {s t : Scope} {b : Builder}

theorem Holds.start (g : Graph) : Holds g [] { graph := g } := ⟨.nil, by simp⟩

theorem Holds.build (h : Holds g builds s) (b : Builder) :
    Holds g (builds ++ [b]) (b.build s) where
  instances := by
    rw [List.map_append]
    exact h.instances.concat Rdf.sameness_same b.node
  graph t := by
    rw [Builder.build, add, Graph.contains_insertAll, Bool.or_eq_true, h.graph]
    simp only [List.mem_append, List.mem_singleton, or_and_right, exists_or, exists_eq_left,
      or_assoc]

/-- A scope that has grown out of another one. -/
structure Grown (s t : Scope) : Prop where
  triples : s.graph.triples <+: t.graph.triples
  instances : s.instances <+: t.instances

theorem Grown.refl (s : Scope) : Grown s s := ⟨List.prefix_refl _, List.prefix_refl _⟩

theorem Grown.trans {u : Scope} (h : Grown s t) (h' : Grown t u) : Grown s u :=
  ⟨h.triples.trans h'.triples, h.instances.trans h'.instances⟩

theorem grown_build (b : Builder) (s : Scope) : Grown s (b.build s) where
  triples := Graph.prefix_insertAll b.triples s.graph
  instances := by
    rw [Builder.build, add]
    split_ifs
    · exact List.prefix_refl _
    · exact List.prefix_append _ _

/-- The node of a builder and its triples are in the scope. -/
structure Has (s : Scope) (b : Builder) : Prop where
  triples : ∀ t ∈ b.triples, s.graph.contains t = true
  node : s.instances.any b.node.same = true

theorem has_build (b : Builder) (s : Scope) : Has (b.build s) b where
  triples t ht := by
    rw [Builder.build, add, Graph.contains_insertAll, Bool.or_eq_true, List.any_eq_true]
    exact .inr ⟨t, ht, Triple.same_refl t⟩
  node := by
    rw [Builder.build, add]
    split_ifs with h
    · exact h
    · simp [Term.same_refl]

theorem Has.grown (h : Has s b) (hgrown : Grown s t) : Has t b where
  triples u hu := by
    obtain ⟨v, hv, hsame⟩ := List.any_eq_true.1 (h.triples u hu)
    exact List.any_eq_true.2 ⟨v, hgrown.triples.subset hv, hsame⟩
  node := by
    obtain ⟨v, hv, hsame⟩ := List.any_eq_true.1 h.node
    exact List.any_eq_true.2 ⟨v, hgrown.instances.subset hv, hsame⟩

theorem Has.build_eq (h : Has s b) : b.build s = s := by
  rw [Builder.build, add, Graph.insertAll_of_contains _ h.triples, if_pos h.node]

end Scope

/-! ## Runs -/

namespace Workbench

/-- A workbench without builders, and with a graph in its scope. -/
def start (g : Graph) : Workbench := { scope := { graph := g } }

/-- The workbench after operations, some of which may have failed. -/
def run [Platform] (w : Workbench) (ops : List Operation) : Workbench :=
  ops.foldl (fun w op => (w.perform op).2) w

/-- The builder of a name, if it builds into the shared scope. -/
def joined? (w : Workbench) (name : String) : Option Builder :=
  (Assoc.get? name w.builders).bind fun e => if e.2.isShared then some e.1 else none

/-- The builder that an operation hands over to the shared scope, as it is at that time. -/
def handedOver? (w : Workbench) : Operation → Option Builder
  | .build name => w.joined? name
  | _ => none

/-- The builders that operations hand over to the shared scope, in order. -/
def builds [Platform] : Workbench → List Operation → List Builder
  | _, [] => []
  | w, op :: ops => (w.handedOver? op).toList ++ builds (w.perform op).2 ops

end Workbench

/-- The builder that an operation makes or sets a value of. -/
def Operation.writes? : Operation → Option String
  | .create name .. | .keepLiteral name .. | .keepNode name .. => some name
  | .toGraph _ | .validate .. | .build _ => none

namespace Workbench

variable (w : Workbench) {name : String} {op : Operation}

/-- Only building changes the shared scope, by what the builder holds. -/
theorem scope_perform [Platform] (op : Operation) :
    (w.perform op).2.scope = (w.handedOver? op).elim w.scope fun b => b.build w.scope := by
  cases op with
  | create name className classIri iri joined =>
    simp only [perform, handedOver?, Option.elim]
    split <;> rfl
  | build name =>
    simp only [perform, withBuilder, handedOver?, joined?]
    rcases Assoc.get? name w.builders with _ | ⟨b, _ | scope | _⟩ <;> rfl
  | _ name =>
    simp only [perform, withBuilder, handedOver?, Option.elim]
    rcases Assoc.get? name w.builders with _ | ⟨b, a⟩ <;> rfl

theorem grown_perform [Platform] (op : Operation) : w.scope.Grown (w.perform op).2.scope := by
  rw [scope_perform]
  rcases w.handedOver? op with _ | b
  · exact .refl _
  · exact Scope.grown_build b w.scope

theorem grown_run [Platform] : ∀ (ops : List Operation) (w : Workbench),
    w.scope.Grown (w.run ops).scope
  | [], _ => .refl _
  | op :: ops, w => (w.grown_perform op).trans (grown_run ops (w.perform op).2)

/-- What a scope holds after a run, if it held something before. -/
theorem holds_run [Platform] {g : Graph} : ∀ (ops : List Operation) {w : Workbench}
    {before : List Builder},
    w.scope.Holds g before → (w.run ops).scope.Holds g (before ++ w.builds ops)
  | [], w, before, h => by rwa [builds, List.append_nil]
  | op :: ops, w, before, h => by
    have hstep : (w.perform op).2.scope.Holds g (before ++ (w.handedOver? op).toList) := by
      rw [scope_perform]
      rcases w.handedOver? op with _ | b
      · rwa [Option.toList_none, List.append_nil]
      · exact h.build b
    rw [builds, ← List.append_assoc]
    exact holds_run ops hstep

theorem joined?_put_of_ne {other : String} (h : other ≠ name) (b : Builder) (a : Attachment) :
    (w.put name b a).joined? other = w.joined? other := by
  rw [joined?, put, Assoc.get?_put_of_ne h, joined?]

/-- A builder of the shared scope stays as it is unless something is set or made in its place. -/
theorem joined?_perform [Platform] (h : op.writes? ≠ some name) :
    (w.perform op).2.joined? name = w.joined? name := by
  cases op with
  | create other className classIri iri joined =>
    have hne : name ≠ other := fun he => h (by rw [he]; rfl)
    simp only [perform]
    split
    · rfl
    · exact joined?_put_of_ne _ hne _ _
  | build other =>
    simp only [perform, withBuilder]
    rcases hget : Assoc.get? other w.builders with _ | ⟨b, a⟩
    · rfl
    · by_cases he : name = other
      · -- Building keeps the builder, and a shared scope stays the shared one.
        subst he
        rcases a with _ | scope | _ <;>
          simp [joined?, put, Assoc.get?_put_self, hget, Attachment.build, Attachment.isShared]
      · exact joined?_put_of_ne _ he _ _
  | toGraph other | validate other rules =>
    simp only [perform, withBuilder]
    rcases Assoc.get? other w.builders with _ | ⟨b, a⟩ <;> rfl
  | keepLiteral other | keepNode other =>
    have hne : name ≠ other := fun he => h (by rw [he]; rfl)
    simp only [perform, withBuilder]
    rcases Assoc.get? other w.builders with _ | ⟨b, a⟩
    · rfl
    · exact joined?_put_of_ne _ hne _ _

theorem joined?_run [Platform] : ∀ (ops : List Operation) (w : Workbench),
    (∀ op ∈ ops, op.writes? ≠ some name) → (w.run ops).joined? name = w.joined? name
  | [], w, _ => rfl
  | op :: ops, w, h => by
    rw [List.forall_mem_cons] at h
    exact (joined?_run ops (w.perform op).2 h.2).trans (w.joined?_perform h.1)

/-- A second build changes nothing if nothing was set in between. -/
theorem scope_rebuild [Platform] {between : List Operation}
    (h : ∀ op ∈ between, op.writes? ≠ some name) :
    (((w.run (.build name :: between)).perform (.build name)).2).scope
      = (w.run (.build name :: between)).scope := by
  have hjoined : (w.run (.build name :: between)).joined? name = w.joined? name :=
    joined?_run (.build name :: between) w (List.forall_mem_cons.2 ⟨by simp [Operation.writes?], h⟩)
  rw [scope_perform, handedOver?, hjoined]
  rcases hb : w.joined? name with _ | b
  · rfl
  · have hfirst : (w.perform (.build name)).2.scope.Has b := by
      rw [scope_perform, handedOver?, hb]
      exact Scope.has_build b w.scope
    exact (hfirst.grown (grown_run between _)).build_eq

/-- At every point of a run, the shared scope holds the graph that it started with and what the
builders held whenever they were built, and lists the built nodes without repetitions in the order
of their first builds. Only building changes it, nothing is ever removed, and building again
changes nothing if nothing was set in between. -/
theorem scope_of_run [Platform] (g : Graph) (ops : List Operation) :
    ((start g).run ops).scope.Holds g ((start g).builds ops)
      ∧ ((start g).run ops).scope.instances.Pairwise (fun a b => a.same b = false)
      ∧ (∀ op, ((start g).run ops).scope.graph.triples
        <+: (((start g).run ops).perform op).2.scope.graph.triples)
      ∧ (∀ op, (∀ name, op ≠ .build name) →
        (((start g).run ops).perform op).2.scope = ((start g).run ops).scope)
      ∧ ∀ name between, (∀ op ∈ between, op.writes? ≠ some name) →
        ((start g).run (ops ++ .build name :: between ++ [.build name])).scope
          = ((start g).run (ops ++ .build name :: between)).scope := by
  have hholds := holds_run ops (w := start g) (Scope.Holds.start g)
  rw [List.nil_append] at hholds
  refine ⟨hholds, hholds.instances.pairwise Rdf.sameness_same, fun op => ?_, fun op hop => ?_,
    fun name between h => ?_⟩
  · exact (grown_perform _ op).triples
  · have hnone : ((start g).run ops).handedOver? op = none := by
      cases op with
      | build name => exact absurd rfl (hop name)
      | _ => rfl
    rw [scope_perform, hnone]
    rfl
  · have hrun : ∀ rest, (start g).run (ops ++ rest) = ((start g).run ops).run rest := fun rest =>
      List.foldl_append
    rw [List.append_assoc, hrun, hrun, run, List.foldl_append]
    exact scope_rebuild _ h

/-- Two builders of one node: the first is built, then the second gets a value and is built. -/
def twoBuilders : List Operation :=
  [.create "x" "ABuilder" "A" (.text "n") true, .create "y" "BBuilder" "B" (.text "n") true,
   .build "x", .keepNode "y" .append { name := "p", path := "p" } (.text "m"), .build "y"]

section

attribute [local instance] Platform.standard

/-- The node is listed once and has what both builders held; building the first again, after a look
at the second, changes nothing. -/
theorem twoBuilders_scope :
    ((start .empty).run twoBuilders).scope.instances = [.iri "n"]
      ∧ ((start .empty).run twoBuilders).scope.graph.triples
        = [⟨.iri "n", .iri Rdf.rdfType, .iri "A"⟩, ⟨.iri "n", .iri Rdf.rdfType, .iri "B"⟩,
          ⟨.iri "n", .iri "p", .iri "m"⟩]
      ∧ FirstOccurrences Term.same [.iri "n", .iri "n"]
        ((start .empty).run twoBuilders).scope.instances
      ∧ (((start .empty).run twoBuilders).perform (.toGraph "y")).2.scope
        = ((start .empty).run twoBuilders).scope
      ∧ ((start .empty).run (twoBuilders ++ .build "x" :: [.toGraph "y"] ++ [.build "x"])).scope
        = ((start .empty).run (twoBuilders ++ .build "x" :: [.toGraph "y"])).scope := by
  obtain ⟨hholds, -, -, honly, hrebuild⟩ := scope_of_run .empty twoBuilders
  have hnodes : ((start .empty).builds twoBuilders).map Builder.node = [.iri "n", .iri "n"] := by
    decide +kernel
  refine ⟨by decide +kernel, by decide +kernel, hnodes ▸ hholds.instances,
    honly (.toGraph "y") (by simp), hrebuild "x" [.toGraph "y"] ?_⟩
  simp [Operation.writes?]

end

end Workbench

end ShapeForge
