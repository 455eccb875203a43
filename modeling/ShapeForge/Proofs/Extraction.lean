import ShapeForge.Proofs.Objects
import ShapeForge.Proofs.Outcome
import ShapeForge.Proofs.Predicates

/-!
# Shapes that are read from a graph

Properties are put in order, and none is lost or made up on the way (`Shape.arranged_perm`). So
whatever a class declares was read at a property node of a shape node that targets the class
(`Ontology.exists_node_of_mem_declared`).
-/

namespace ShapeForge

open Rdf (Graph Term)

theorem Noted.after_note {ε α : Type} (notice : Notice) (a : α) (s : List Notice) :
    (do Noted.note notice; return a : Noted ε α).after s = (.ok a, s ++ [notice]) := rfl

/-- Whatever a sequence of computations gives was given by one of them. -/
theorem Noted.exists_of_mem_mapM {ε α β : Type} {f : α → Noted ε β} :
    ∀ {xs : List α} {ys : List β} {s t : List Notice}, (xs.mapM f).after s = (.ok ys, t) →
      ∀ y ∈ ys, ∃ x ∈ xs, ∃ u w, (f x).after u = (.ok y, w)
  | [], ys, s, t, h, y, hy => by
    rw [List.mapM_nil, after_pure, Prod.mk.injEq, Except.ok.injEq] at h
    simp [← h.1] at hy
  | x :: xs, ys, s, t, h, y, hy => by
    rw [List.mapM_cons, after_bind_ok] at h
    obtain ⟨first, u, hfirst, h⟩ := h
    rw [after_bind_ok] at h
    obtain ⟨rest, w, hrest, h⟩ := h
    rw [after_pure, Prod.mk.injEq, Except.ok.injEq] at h
    obtain ⟨rfl, -⟩ := h
    rcases List.mem_cons.1 hy with rfl | hy
    · exact ⟨x, List.mem_cons_self, s, u, hfirst⟩
    · obtain ⟨z, hz, heq⟩ := exists_of_mem_mapM hrest y hy
      exact ⟨z, List.mem_cons_of_mem x hz, heq⟩

namespace Shape

/-! ## The order of properties -/

section Order

variable {α : Type} (lt : α → α → Bool)

theorem insertPivot_perm (sorted : List α) (pivot : α) :
    (insertPivot lt sorted pivot).Perm (pivot :: sorted) := by
  unfold insertPivot
  dsimp only
  refine List.perm_middle.trans ?_
  rw [List.take_append_drop]

theorem foldl_insertPivot_perm : ∀ rest sorted : List α,
    (rest.foldl (insertPivot lt) sorted).Perm (sorted ++ rest)
  | [], sorted => by rw [List.foldl_nil, List.append_nil]
  | pivot :: rest, sorted => by
    rw [List.foldl_cons]
    exact (foldl_insertPivot_perm rest _).trans
      (((insertPivot_perm lt sorted pivot).append_right rest).trans List.perm_middle.symm)

theorem insertAll_perm (xs : List α) : (insertAll lt xs).Perm xs := by
  rcases xs with _ | ⟨x, _ | ⟨y, rest⟩⟩
  · exact .refl _
  · exact .refl _
  · -- The run at the front is kept or turned around; all others are inserted.
    unfold insertAll
    dsimp only
    refine (foldl_insertPivot_perm lt _ _).trans ?_
    split_ifs
    · refine ((List.reverse_perm _).append_right _).trans ?_
      rw [List.take_append_drop]
    · rw [List.take_append_drop]

end Order

theorem arranged_perm (properties : List PropertyShape) :
    (arranged properties).Perm properties := by
  unfold arranged
  split_ifs
  · exact List.mergeSort_perm _ _
  · exact insertAll_perm _ properties

/-! ## Shape nodes and property nodes -/

/-- A node shape that targets a class. -/
structure Targets (g : Graph) (shape : Term) (iri : String) : Prop where
  typed : shape ∈ g.subjects (.iri Rdf.rdfType) (.iri (Rdf.sh "NodeShape"))
  target : Term.iri iri ∈ g.objects shape (.iri (Rdf.sh "targetClass"))

/-- A property node of a shape node, with what is read there. -/
structure Declares [Rdf.Datatypes] (g : Graph) (shape node : Term) (d : PropertyShape) : Prop where
  property : node ∈ g.objects shape (.iri (Rdf.sh "property"))
  path : field? g node "path" = some (.iri d.path)
  reads : propertyAt g shape.text d.path node = .ok d

theorem iri?_eq_some {t : Term} {iri : String} (h : t.iri? = some iri) : t = .iri iri := by
  rcases t with iri' | _ | _
  · exact congrArg Term.iri (Option.some.inj h)
  · simp [Term.iri?] at h
  · simp [Term.iri?] at h

variable {g : Graph} {shape node : Term} {d : PropertyShape} {s t : List Notice}

theorem propertyAt_ok [Rdf.Datatypes] {text path : String}
    (h : propertyAt g text path node = .ok d) :
    d.path = path ∧ constraintsOf g text node = .ok d.constraints := by
  rw [propertyAt, bind_ok_iff] at h
  obtain ⟨constraints, hconstraints, h⟩ := h
  rw [bind_ok_iff] at h
  obtain ⟨order, -, h⟩ := h
  rw [← Except.ok.inj h]
  exact ⟨rfl, hconstraints⟩

theorem propertyOf_ok [Rdf.Datatypes] {text : String}
    (h : (propertyOf g text node).after s = (.ok (some d), t)) :
    field? g node "path" = some (.iri d.path) ∧ propertyAt g text d.path node = .ok d := by
  unfold propertyOf at h
  rcases hpath : field? g node "path" with _ | path | label | l
  · rw [hpath] at h
    simp only [Noted.after_note, Prod.mk.injEq, Except.ok.injEq, reduceCtorEq, false_and] at h
  · rw [hpath] at h
    simp only [map_eq_pure_bind, Noted.after_bind_ok, Noted.after_liftM, Noted.after_pure,
      Prod.mk.injEq] at h
    obtain ⟨read, u, ⟨hread, -⟩, heq, -⟩ := h
    obtain rfl : read = d := by simpa using heq
    rw [(propertyAt_ok hread).1]
    exact ⟨rfl, hread⟩
  · rw [hpath] at h
    simp only [Noted.after_note, Prod.mk.injEq, Except.ok.injEq, reduceCtorEq, false_and] at h
  · rw [hpath] at h
    simp only [Noted.after_note, Prod.mk.injEq, Except.ok.injEq, reduceCtorEq, false_and] at h

theorem declares_of_mem_propertiesOf [Rdf.Datatypes] {properties : List PropertyShape}
    (h : (propertiesOf g shape).after s = (.ok properties, t)) (hd : d ∈ properties) :
    ∃ node, Declares g shape node d := by
  rw [propertiesOf, Noted.after_bind_ok] at h
  obtain ⟨found, u, hfound, h⟩ := h
  rw [Noted.after_pure, Prod.mk.injEq, Except.ok.injEq] at h
  obtain ⟨rfl, -⟩ := h
  rw [(arranged_perm _).mem_iff, List.mem_filterMap] at hd
  obtain ⟨_, hmem, rfl⟩ := hd
  obtain ⟨node, hnode, u, w, hread⟩ := Noted.exists_of_mem_mapM hfound _ hmem
  obtain ⟨hpath, hread⟩ := propertyOf_ok hread
  exact ⟨node, hnode, hpath, hread⟩

/-- What a shape says was read at one shape node. -/
def ReadAt [Rdf.Datatypes] (g : Graph) (node : Term) (s : NodeShape) : Prop :=
  Targets g node s.targetClass ∧ ∀ d ∈ s.properties, ∃ b, Declares g node b d

theorem readAt_of_mem_shapesAt [Rdf.Datatypes] {shapes : List NodeShape} {r : NodeShape}
    (hnode : node ∈ g.subjects (.iri Rdf.rdfType) (.iri (Rdf.sh "NodeShape")))
    (h : (shapesAt g node).after s = (.ok shapes, t)) (hr : r ∈ shapes) : ReadAt g node r := by
  unfold shapesAt at h
  dsimp only at h
  split_ifs at h with hempty
  · rw [Noted.after_note, Prod.mk.injEq, Except.ok.injEq] at h
    simp [← h.1] at hr
  · rw [Noted.after_bind_ok] at h
    obtain ⟨properties, u, hproperties, h⟩ := h
    rw [Noted.after_pure, Prod.mk.injEq, Except.ok.injEq] at h
    obtain ⟨rfl, -⟩ := h
    obtain ⟨iri, hiri, rfl⟩ := List.mem_map.1 hr
    obtain ⟨target, htarget, hsome⟩ := List.mem_filterMap.1 hiri
    obtain rfl : target = .iri iri := iri?_eq_some hsome
    exact ⟨⟨hnode, htarget⟩, fun d hd => declares_of_mem_propertiesOf hproperties hd⟩

theorem exists_readAt_of_mem_shapesOf [Rdf.Datatypes] {shapes : List NodeShape}
    {notices : List Notice}
    {r : NodeShape} (h : (shapesOf g).outcome = (.ok shapes, notices)) (hr : r ∈ shapes) :
    ∃ node, ReadAt g node r := by
  rw [Noted.outcome_eq, shapesOf, Noted.after_bind_ok] at h
  obtain ⟨found, u, hfound, h⟩ := h
  rw [Noted.after_pure, Prod.mk.injEq, Except.ok.injEq] at h
  obtain ⟨rfl, -⟩ := h
  obtain ⟨here, hhere, hr⟩ := List.mem_flatten.1 hr
  obtain ⟨node, hnode, u, w, hread⟩ := Noted.exists_of_mem_mapM hfound here hhere
  exact ⟨node, readAt_of_mem_shapesAt (Rdf.mem_of_mem_distinctTerms hnode) hread hr⟩

end Shape

/-- What is declared for a class was read at a property node of a shape node that targets it. -/
theorem Ontology.exists_node_of_mem_declared [Platform] {source : String} {context : Option Json}
    {g : Graph} {o : Ontology} {notices : List Notice} {iri : String} {d : PropertyShape}
    (h : (ofGraph source context g).outcome = (.ok o, notices)) (hd : d ∈ o.declared iri) :
    ∃ shape node, Shape.Targets g shape iri ∧ Shape.Declares g shape node d := by
  obtain ⟨shapes, read, hshapes, -, rfl⟩ := ofGraph_ok_iff.1 h
  obtain ⟨r, hr, hproperty⟩ := List.mem_flatMap.1 hd
  obtain ⟨hmem, hiri⟩ := List.mem_filter.1 hr
  obtain rfl : r.targetClass = iri := by simpa using hiri
  obtain ⟨shape, htargets, hdeclares⟩ := Shape.exists_readAt_of_mem_shapesOf hshapes hmem
  obtain ⟨node, hnode⟩ := hdeclares d hproperty
  exact ⟨shape, node, htargets, hnode⟩

end ShapeForge
