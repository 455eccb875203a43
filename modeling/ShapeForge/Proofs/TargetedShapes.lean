import ShapeForge.Platform.Standard
import ShapeForge.Proofs.EnumerationOrder
import ShapeForge.Proofs.Extraction

/-!
# One shape for each target

Reading the shapes of a graph goes through its shape nodes, their targets and their property nodes
in order. Every target of a shape node gives one shape (`Shape.shapesAt_after`), and every property
node gives a property or a notice (`Shape.propertyOf_after`). Nothing is left out without a notice,
and none is given for anything that is kept.

A graph has no triple twice, so no pair of a shape node and a target comes twice
(`Shape.targetPairs_pairwise`).
-/

namespace ShapeForge

open Rdf (Graph Term Triple)

/-! ## Subjects of a graph -/

namespace Rdf

theorem eraseDupsBy_of_pairwise {α : Type} {r : α → α → Bool} :
    ∀ {l : List α}, (l.Pairwise fun a b => r b a = false) → l.eraseDupsBy r = l
  | [], _ => by simp
  | a :: l, h => by
    obtain ⟨hhead, htail⟩ := List.pairwise_cons.1 h
    rw [List.eraseDupsBy_cons, List.filter_eq_self.2 fun b hb => by simp [hhead b hb],
      eraseDupsBy_of_pairwise htail]

theorem distinctTerms_of_pairwise {terms : List Term}
    (h : terms.Pairwise fun a b => a.same b = false) : distinctTerms terms = terms := by
  rw [distinctTerms_eq]
  exact eraseDupsBy_of_pairwise (h.imp fun {a b} hab => (Term.same_comm b a).trans hab)

/-- The subjects of a predicate and an object are told apart. -/
theorem Graph.pairwise_subjects (g : Graph) (p o : Term) :
    (g.subjects p o).Pairwise fun a b => a.same b = false := by
  rw [subjects, List.pairwise_map]
  refine (g.distinct.filter _).imp_of_mem fun {t u} ht hu hsame => ?_
  simp only [List.mem_filter, Bool.and_eq_true] at ht hu
  have hp : t.predicate.same u.predicate = true :=
    Term.same_trans ht.2.1 ((Term.same_comm _ _).trans hu.2.1)
  have ho : t.object.same u.object = true :=
    Term.same_trans ht.2.2 ((Term.same_comm _ _).trans hu.2.2)
  rwa [Triple.same, hp, ho, Bool.and_true, Bool.and_true] at hsame

end Rdf

/-! ## Notices of a sequence -/

/-- If each part of a sequence has a value and notices of its own, the sequence has those of all
parts, in order. -/
theorem Noted.mapM_after {ε α β : Type} {f : α → Noted ε β} {value : α → β}
    {notices : α → List Notice} {P : α → Prop} :
    ∀ {xs : List α} {ys : List β} {s t : List Notice},
      (∀ x ∈ xs, ∀ s y t, (f x).after s = (.ok y, t) → y = value x ∧ t = s ++ notices x ∧ P x) →
      (xs.mapM f).after s = (.ok ys, t) →
      ys = xs.map value ∧ t = s ++ xs.flatMap notices ∧ ∀ x ∈ xs, P x
  | [], ys, s, t, _, h => by
    rw [List.mapM_nil, after_pure, Prod.mk.injEq, Except.ok.injEq] at h
    simp [← h.1, ← h.2]
  | x :: xs, ys, s, t, hf, h => by
    rw [List.forall_mem_cons] at hf
    rw [List.mapM_cons, after_bind_ok] at h
    obtain ⟨y, u, hy, h⟩ := h
    rw [after_bind_ok] at h
    obtain ⟨rest, w, hrest, h⟩ := h
    rw [after_pure, Prod.mk.injEq, Except.ok.injEq] at h
    obtain ⟨rfl, rfl⟩ := h
    obtain ⟨rfl, rfl, hx⟩ := hf.1 s y u hy
    obtain ⟨rfl, rfl, hxs⟩ := mapM_after hf.2 hrest
    refine ⟨rfl, ?_, List.forall_mem_cons.2 ⟨hx, hxs⟩⟩
    rw [List.flatMap_cons, List.append_assoc]

namespace Shape

/-! ## Property nodes -/

/-- The property nodes of a shape node. -/
def propertyNodes (g : Graph) (shape : Term) : List Term :=
  g.objects shape (.iri (Rdf.sh "property"))

/-- Whether the first path of a property node is a single predicate. -/
def hasPath (g : Graph) (node : Term) : Bool := (field? g node "path").any Term.isIri

/-- What is noticed about a property node that is left out. -/
def dropNotice (g : Graph) (shape : String) (node : Term) : Notice :=
  if (field? g node "path").isNone then .noPath shape else .complexPath shape

/-- The property that is read at a property node, if one is. -/
def property? [Rdf.Datatypes] (g : Graph) (shape : String) (node : Term) : Option PropertyShape :=
  ((field? g node "path").bind Term.iri?).bind fun path =>
    (propertyAt g shape path node).toOption

variable {g : Graph} {shape node : Term} {d : PropertyShape} {s t : List Notice}

theorem declares_of_property? [Rdf.Datatypes] (hnode : node ∈ propertyNodes g shape)
    (h : property? g shape.text node = some d) : Declares g shape node d := by
  obtain ⟨path, hpath, hread⟩ := Option.bind_eq_some_iff.1 h
  obtain ⟨first, hfirst, hiri⟩ := Option.bind_eq_some_iff.1 hpath
  obtain rfl : first = .iri path := iri?_eq_some hiri
  rcases hat : propertyAt g shape.text path node with e | d'
  · rw [hat] at hread
    cases hread
  · rw [hat] at hread
    obtain rfl : d' = d := Option.some.inj hread
    have hd : d'.path = path := (propertyAt_ok hat).1
    exact ⟨hnode, by rw [hfirst, hd], by rw [hd, hat]⟩

/-- A property node is read, or left out with a notice. -/
theorem propertyOf_after [Rdf.Datatypes] {text : String} {r : Option PropertyShape}
    (h : (propertyOf g text node).after s = (.ok r, t)) :
    r = property? g text node
      ∧ t = s ++ (if hasPath g node then [] else [dropNotice g text node])
      ∧ (property? g text node).isSome = hasPath g node := by
  unfold propertyOf at h
  unfold property? hasPath dropNotice
  rcases hpath : field? g node "path" with _ | path | label | l
  · rw [hpath] at h
    simp only [Noted.after_note, Prod.mk.injEq, Except.ok.injEq] at h
    simp [← h.1, ← h.2]
  · rw [hpath] at h
    simp only [map_eq_pure_bind, Noted.after_bind_ok, Noted.after_liftM, Noted.after_pure,
      Prod.mk.injEq, Except.ok.injEq] at h
    obtain ⟨d, u, ⟨hread, rfl⟩, rfl, rfl⟩ := h
    simp [Term.iri?, Term.isIri, hread, Except.toOption]
  · rw [hpath] at h
    simp only [Noted.after_note, Prod.mk.injEq, Except.ok.injEq] at h
    simp [Term.iri?, Term.isIri, ← h.1, ← h.2]
  · rw [hpath] at h
    simp only [Noted.after_note, Prod.mk.injEq, Except.ok.injEq] at h
    simp [Term.iri?, Term.isIri, ← h.1, ← h.2]

/-- The properties that are read at the property nodes of a shape node, in their order. -/
def propertiesAt [Rdf.Datatypes] (g : Graph) (shape : Term) : List PropertyShape :=
  arranged ((propertyNodes g shape).filterMap (property? g shape.text))

/-- The notices about the property nodes of a shape node that are left out. -/
def dropNotices (g : Graph) (shape : Term) : List Notice :=
  ((propertyNodes g shape).filter fun node => !hasPath g node).map (dropNotice g shape.text)

/-- Every property node with a path is read. -/
def PathsRead [Rdf.Datatypes] (g : Graph) (shape : Term) : Prop :=
  ∀ node ∈ propertyNodes g shape, (property? g shape.text node).isSome = hasPath g node

theorem propertiesOf_after [Rdf.Datatypes] {properties : List PropertyShape}
    (h : (propertiesOf g shape).after s = (.ok properties, t)) :
    properties = propertiesAt g shape ∧ t = s ++ dropNotices g shape ∧ PathsRead g shape := by
  have hnotices : ∀ nodes : List Term,
      (nodes.flatMap fun node => if hasPath g node then [] else [dropNotice g shape.text node])
        = (nodes.filter fun node => !hasPath g node).map (dropNotice g shape.text) := by
    intro nodes
    induction nodes with
    | nil => rfl
    | cons node nodes ih => cases hnode : hasPath g node <;> simp [hnode, ih]
  rw [propertiesOf, Noted.after_bind_ok] at h
  obtain ⟨found, u, hfound, h⟩ := h
  rw [Noted.after_pure, Prod.mk.injEq, Except.ok.injEq] at h
  obtain ⟨rfl, rfl⟩ := h
  obtain ⟨rfl, rfl, hread⟩ := Noted.mapM_after (fun node _ s r t => propertyOf_after) hfound
  refine ⟨?_, ?_, hread⟩
  · rw [List.filterMap_map]
    rfl
  · rw [hnotices]
    rfl

theorem forall₂_filterMap {α β : Type} {f : α → Option β} {p : α → Bool} :
    ∀ {xs : List α}, (∀ x ∈ xs, (f x).isSome = p x) →
      List.Forall₂ (fun x y => f x = some y) (xs.filter p) (xs.filterMap f)
  | [], _ => .nil
  | x :: xs, h => by
    rw [List.forall_mem_cons] at h
    have ih := forall₂_filterMap h.2
    cases hx : f x with
    | none =>
      rw [List.filterMap_cons_none hx, List.filter_cons_of_neg (by simp [← h.1, hx])]
      exact ih
    | some y =>
      rw [List.filterMap_cons_some hx, List.filter_cons_of_pos (by simp [← h.1, hx])]
      exact .cons hx ih

/-- The properties correspond one to one to the property nodes with a path. -/
theorem PathsRead.exists_perm [Rdf.Datatypes] (h : PathsRead g shape) :
    ∃ nodes, nodes.Perm ((propertyNodes g shape).filter (hasPath g))
      ∧ List.Forall₂ (Declares g shape) nodes (propertiesAt g shape) := by
  have hread : List.Forall₂ (Declares g shape) ((propertyNodes g shape).filter (hasPath g))
      ((propertyNodes g shape).filterMap (property? g shape.text)) := by
    have hmem := (List.forall₂_and_left _ _).2
      ⟨fun node hnode => (List.mem_filter.1 hnode).1, forall₂_filterMap h⟩
    exact hmem.imp fun node d hd => declares_of_property? hd.1 hd.2
  obtain ⟨nodes, hperm, hnodes⟩ :=
    List.perm_comp_forall₂ (arranged_perm _) hread.flip
  exact ⟨nodes, hnodes, hperm.flip⟩

/-! ## Shape nodes -/

/-- The shape nodes of a graph. -/
def shapeNodes (g : Graph) : List Term :=
  g.subjects (.iri Rdf.rdfType) (.iri (Rdf.sh "NodeShape"))

/-- The IRIs that a shape node targets. -/
def targetIris (g : Graph) (shape : Term) : List String :=
  (g.objects shape (.iri (Rdf.sh "targetClass"))).filterMap Term.iri?

/-- The pairs of a shape node and an IRI that it targets. -/
def targetPairs (g : Graph) : List (Term × String) :=
  (shapeNodes g).flatMap fun shape => (targetIris g shape).map fun iri => (shape, iri)

/-- What is noticed at a shape node: that it has no target, or else what is left out there. -/
def noticesAt (g : Graph) (shape : Term) : List Notice :=
  if (targetIris g shape).isEmpty then [.noTargetClass shape.text] else dropNotices g shape

theorem mem_targetIris {iri : String} :
    iri ∈ targetIris g shape ↔ Term.iri iri ∈ g.objects shape (.iri (Rdf.sh "targetClass")) := by
  rw [targetIris, List.mem_filterMap]
  constructor
  · rintro ⟨target, hmem, hiri⟩
    rwa [← iri?_eq_some hiri]
  · intro h
    exact ⟨.iri iri, h, rfl⟩

theorem mem_targetPairs {iri : String} : (shape, iri) ∈ targetPairs g ↔ Targets g shape iri := by
  simp only [targetPairs, List.mem_flatMap, List.mem_map, Prod.mk.injEq]
  constructor
  · rintro ⟨node, hnode, target, htarget, rfl, rfl⟩
    exact ⟨hnode, mem_targetIris.1 htarget⟩
  · intro h
    exact ⟨shape, h.typed, iri, mem_targetIris.2 h.target, rfl, rfl⟩

theorem nodup_targetIris (shape : Term) : (targetIris g shape).Nodup := by
  have hobjects := g.nodup_objects shape (.iri (Rdf.sh "targetClass"))
  refine List.Nodup.filterMap (fun a b iri ha hb => ?_) hobjects.of_map
  rw [iri?_eq_some ha, iri?_eq_some hb]

/-- No shape node and target come twice. -/
theorem targetPairs_pairwise :
    (targetPairs g).Pairwise fun p q => ¬(p.1.same q.1 = true ∧ p.2 = q.2) := by
  rw [targetPairs, List.pairwise_flatMap]
  constructor
  · intro shape _
    rw [List.pairwise_map]
    exact (nodup_targetIris shape).imp fun hne h => hne h.2
  · refine (g.pairwise_subjects _ _).imp fun {a b} hab p hp q hq h => ?_
    obtain ⟨_, _, rfl⟩ := List.mem_map.1 hp
    obtain ⟨_, _, rfl⟩ := List.mem_map.1 hq
    simp [hab] at h

/-- Every target of a shape node gives one shape, with the same properties. -/
theorem shapesAt_after [Rdf.Datatypes] {shapes : List NodeShape}
    (h : (shapesAt g shape).after s = (.ok shapes, t)) :
    shapes = (targetIris g shape).map (fun iri => ⟨shape.text, iri, propertiesAt g shape⟩)
      ∧ t = s ++ noticesAt g shape ∧ (targetIris g shape ≠ [] → PathsRead g shape) := by
  unfold shapesAt at h
  unfold noticesAt targetIris
  dsimp only at h
  split_ifs at h with hempty
  · rw [Noted.after_note, Prod.mk.injEq, Except.ok.injEq] at h
    obtain ⟨rfl, rfl⟩ := h
    rw [if_pos hempty, List.isEmpty_iff.1 hempty]
    simp
  · rw [Noted.after_bind_ok] at h
    obtain ⟨properties, u, hproperties, h⟩ := h
    rw [Noted.after_pure, Prod.mk.injEq, Except.ok.injEq] at h
    obtain ⟨rfl, rfl⟩ := h
    obtain ⟨rfl, rfl, hread⟩ := propertiesOf_after hproperties
    rw [if_neg hempty]
    exact ⟨rfl, rfl, fun _ => hread⟩

/-- The shapes of a graph are its pairs of a shape node and a target, each once and in order. Their
properties are the property nodes with a path, one to one and for every target alike, and there is
one notice for each shape node without a target and for each property node that is left out. -/
theorem shapes_of_targetPairs [Rdf.Datatypes] {shapes : List NodeShape} {notices : List Notice}
    (h : (shapesOf g).outcome = (.ok shapes, notices)) :
    (targetPairs g).Pairwise (fun p q => ¬(p.1.same q.1 = true ∧ p.2 = q.2))
      ∧ (∀ shape iri, (shape, iri) ∈ targetPairs g ↔ Targets g shape iri)
      ∧ notices = (shapeNodes g).flatMap (noticesAt g)
      ∧ ∃ properties : Term → List PropertyShape,
        shapes = (targetPairs g).map (fun p => ⟨p.1.text, p.2, properties p.1⟩)
          ∧ ∀ shape iri, Targets g shape iri →
            ∃ nodes, nodes.Perm ((propertyNodes g shape).filter (hasPath g))
              ∧ List.Forall₂ (Declares g shape) nodes (properties shape) := by
  have hnodes : Rdf.distinctTerms (g.subjects (.iri Rdf.rdfType) (.iri (Rdf.sh "NodeShape")))
      = shapeNodes g := Rdf.distinctTerms_of_pairwise (g.pairwise_subjects _ _)
  rw [Noted.outcome_eq, shapesOf, Noted.after_bind_ok, hnodes] at h
  obtain ⟨found, u, hfound, h⟩ := h
  rw [Noted.after_pure, Prod.mk.injEq, Except.ok.injEq] at h
  obtain ⟨rfl, rfl⟩ := h
  obtain ⟨rfl, rfl, hread⟩ := Noted.mapM_after (fun shape _ s r t => shapesAt_after) hfound
  refine ⟨targetPairs_pairwise, fun _ _ => mem_targetPairs, rfl, propertiesAt g, ?_, ?_⟩
  · rw [targetPairs, List.map_flatMap, List.flatMap_def]
    simp only [List.map_map]
    rfl
  · intro shape iri htargets
    have htarget := mem_targetIris.2 htargets.target
    exact (hread shape htargets.typed (List.ne_nil_of_mem htarget)).exists_perm

/-- A shape node with two targets and one that is no IRI, and with two property nodes that are read
and two that are not; and a shape node without a target. -/
def mixedGraph : Graph := Graph.ofList [
  ⟨.iri "s", .iri Rdf.rdfType, .iri (Rdf.sh "NodeShape")⟩,
  ⟨.iri "s", .iri (Rdf.sh "targetClass"), .iri "a"⟩,
  ⟨.iri "s", .iri (Rdf.sh "targetClass"), .literal ⟨"c", none, none⟩⟩,
  ⟨.iri "s", .iri (Rdf.sh "targetClass"), .iri "b"⟩,
  ⟨.iri "s", .iri (Rdf.sh "property"), .iri "p"⟩,
  ⟨.iri "s", .iri (Rdf.sh "property"), .iri "q"⟩,
  ⟨.iri "s", .iri (Rdf.sh "property"), .iri "r"⟩,
  ⟨.iri "s", .iri (Rdf.sh "property"), .iri "u"⟩,
  ⟨.iri "p", .iri (Rdf.sh "path"), .iri "name"⟩,
  ⟨.iri "q", .iri (Rdf.sh "path"), .iri "age"⟩,
  ⟨.iri "q", .iri (Rdf.sh "order"), .literal ⟨"nan", none, none⟩⟩,
  ⟨.iri "u", .iri (Rdf.sh "path"), .blank (.named "n")⟩,
  ⟨.iri "t", .iri Rdf.rdfType, .iri (Rdf.sh "NodeShape")⟩,
  ⟨.iri "t", .iri (Rdf.sh "property"), .iri "r"⟩]

/-- The two targets have the same properties, the later one first since it has an order. -/
def mixedShapes : List NodeShape :=
  ["a", "b"].map fun target =>
    ⟨"s", target, [{ path := "age", name := "age", order := some .nan },
      { path := "name", name := "name" }]⟩

section

attribute [local instance] Platform.standard

theorem mixedGraph_shapes :
    (shapesOf mixedGraph).outcome
        = (.ok mixedShapes, [.noPath "s", .complexPath "s", .noTargetClass "t"])
      ∧ targetPairs mixedGraph = [(.iri "s", "a"), (.iri "s", "b")]
      ∧ ∃ properties : Term → List PropertyShape,
        mixedShapes = (targetPairs mixedGraph).map (fun p => ⟨p.1.text, p.2, properties p.1⟩)
          ∧ ∀ shape iri, Targets mixedGraph shape iri →
            ∃ nodes, nodes.Perm ((propertyNodes mixedGraph shape).filter (hasPath mixedGraph))
              ∧ List.Forall₂ (Declares mixedGraph shape) nodes (properties shape) := by
  have hread : (shapesOf mixedGraph).outcome
      = (.ok mixedShapes, [.noPath "s", .complexPath "s", .noTargetClass "t"]) := by
    decide +kernel
  obtain ⟨-, -, -, hproperties⟩ := shapes_of_targetPairs hread
  exact ⟨hread, by decide +kernel, hproperties⟩

end

end Shape

end ShapeForge
