import ShapeForge.Proofs.Resolution

/-!
# Resolution as a walk with marks

A walk marks a class while it resolves what is above it, and passes by super classes that are
marked. Nothing in such a walk bounds its depth: the marks are a part of the state, which every
call may change.

They are the calls that are open, so each call leaves them as it found them (`walk_eq`). Hence the
walk through all classes of an ontology comes to an end, is no deeper than there are emitted
classes, leaves no mark, and answers what resolution does (`Ontology.walk_eq_resolve`).
-/

namespace ShapeForge

namespace Model

variable (o : Ontology) {names : List (String × ClassNames)}

/-- The available classes are those that have names and no marks. -/
def Unmarked (names : List (String × ClassNames)) (marks : List String)
    (available : List String) : Prop :=
  available.Nodup ∧ ∀ iri, iri ∈ available ↔ iri ∈ names.map (·.1) ∧ iri ∉ marks

theorem Unmarked.insert {marks : List String} {available : List String}
    (h : Unmarked names marks available) (iri : String) :
    Unmarked names (iri :: marks) (available.erase iri) := by
  refine ⟨h.1.erase _, fun x => ?_⟩
  rw [h.1.mem_erase_iff, h.2, List.mem_cons, not_or, and_left_comm]

/-- If the walk to each available class does what its resolution does and leaves the marks alone,
so does the walk to the super classes of a class. -/
theorem walkSupers_eq (walk : String → Marking → Option (ClassModel × Marking))
    {marks : List String} {available : List String} (h : Unmarked names marks available)
    (hwalk : ∀ super ∈ available, ∀ r, walk super ⟨r, marks⟩
      = some ((resolveClass o names (available.erase super) super r).1,
          ⟨(resolveClass o names (available.erase super) super r).2, marks⟩)) :
    ∀ (supers : List String) (r : Resolved), walkSupers names walk supers ⟨r, marks⟩
      = some ((resolveSupers o names available supers r).1,
          ⟨(resolveSupers o names available supers r).2, marks⟩)
  | [], r => by rw [walkSupers, resolveSupers]
  | super :: rest, r => by
    rw [walkSupers, resolveSupers]
    by_cases hs : super ∈ available
    · rw [if_pos ((h.2 super).1 hs), dif_pos hs, hwalk super hs]
      simp only [Option.bind_eq_bind, Option.bind_some, walkSupers_eq walk h hwalk rest]
      rfl
    · rw [if_neg fun hn => hs ((h.2 super).2 hn), dif_neg hs, walkSupers_eq walk h hwalk rest]

/-- A walk is no deeper than there are classes without marks, and leaves the marks as they were. -/
theorem walk_eq : ∀ (depth : ℕ) (marks : List String) (available : List String) (iri : String)
    (r : Resolved), available.length < depth → iri ∉ marks →
      Unmarked names (iri :: marks) available →
      walk o names depth iri ⟨r, marks⟩
        = some ((resolveClass o names available iri r).1,
            ⟨(resolveClass o names available iri r).2, marks⟩)
  | 0, _, _, _, _, hlen, _, _ => absurd hlen (Nat.not_lt_zero _)
  | depth + 1, marks, available, iri, r, hlen, hiri, h => by
    have hsupers := walkSupers_eq o (walk o names depth) h fun super hs r =>
      walk_eq depth (iri :: marks) (available.erase super) super r
        (by
          have hle := List.length_erase_of_mem hs
          have hpos := List.length_pos_of_mem hs
          omega)
        ((h.2 super).1 hs).2 (h.insert super)
    rw [walk, resolveClass]
    rcases Assoc.get? iri r.models with _ | model
    · simp only [hsupers, Option.bind_eq_bind, Option.bind_some, List.erase_cons_head]
      rfl
    · rfl

theorem walkAll_eq {depth : ℕ} {available : List String} (h : Unmarked names ∅ available)
    (hlen : available.length < depth) : ∀ (iris : List String) (r : Resolved),
      walkAll o names depth iris ⟨r, ∅⟩
        = some ((resolveAll o names available iris r).1,
            ⟨(resolveAll o names available iris r).2, ∅⟩)
  | [], r => rfl
  | iri :: rest, r => by
    have hwalk := walk_eq o depth ∅ (available.erase iri) iri r
      (lt_of_le_of_lt available.length_erase_le hlen) (List.not_mem_nil) (h.insert iri)
    rw [walkAll, hwalk]
    simp only [Option.bind_eq_bind, Option.bind_some, walkAll_eq h hlen rest]
    rfl

end Model

namespace Ontology

variable (o : Ontology)

/-- What is resolved in the end. -/
def resolved : Model.Resolved :=
  (Model.resolveAll o o.classNames (o.classNames.map (·.1)) (o.matched.map DeclaredClass.iri) {}).2

theorem length_classNames_le : (o.classNames.map (·.1)).length ≤ o.matched.length := by
  have hsub := o.classNames_keys_nodup.subperm fun _ h => o.mem_classNames_keys.1 h
  calc (o.classNames.map (·.1)).length ≤ (o.matched.map DeclaredClass.iri).length := hsub.length_le
    _ = o.matched.length := List.length_map _

/-- The walk through all classes comes to an end and leaves no mark. -/
theorem walk_eq_resolve {depth : ℕ} (h : o.matched.length < depth) :
    o.walk depth = some (o.resolve.1, ⟨o.resolved, ∅⟩) := by
  have hunmarked : Model.Unmarked o.classNames ∅ (o.classNames.map (·.1)) :=
    ⟨o.classNames_keys_nodup, fun iri => by simp⟩
  exact Model.walkAll_eq o hunmarked (lt_of_le_of_lt o.length_classNames_le h) _ {}

end Ontology

end ShapeForge
