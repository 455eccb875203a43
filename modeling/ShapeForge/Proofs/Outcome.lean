import Mathlib
import ShapeForge.Model.Reader
import ShapeForge.Report

/-!
# Outcomes of runs

A computation that gives notices goes through a sequence exactly if each part goes through on the
notices that the parts before it left (`Noted.after_bind_ok`). So a successful run can be taken
apart: what was read from a graph (`Ontology.ofGraph_ok_iff`) and what a report was made of
(`generate_ok_iff`).
-/

namespace ShapeForge

open Emission (Artifact GenerationError Generator)

theorem bind_ok_iff {ε α β : Type} {x : Except ε α} {f : α → Except ε β} {b : β} :
    x >>= f = .ok b ↔ ∃ a, x = .ok a ∧ f a = .ok b := by
  rcases x with e | a <;> simp [bind, Except.bind]

theorem map_ok_iff {ε α β : Type} {x : Except ε α} {f : α → β} {b : β} :
    x.map f = .ok b ↔ ∃ a, x = .ok a ∧ f a = b := by
  rcases x with e | a <;> simp [Except.map]

theorem map_error_iff {ε α β : Type} {x : Except ε α} {f : α → β} {e : ε} :
    x.map f = .error e ↔ x = .error e := by
  rcases x with e' | a <;> simp [Except.map]

theorem bind_error_iff {ε α β : Type} {x : Except ε α} {f : α → Except ε β} {e : ε} :
    x >>= f = .error e ↔ x = .error e ∨ ∃ a, x = .ok a ∧ f a = .error e := by
  rcases x with e' | a <;> simp [bind, Except.bind]

theorem of_append_error {ε α : Type} {x y : Except ε (List α)} {e : ε}
    (h : (do let a ← x; let b ← y; return a ++ b) = .error e) : x = .error e ∨ y = .error e := by
  rcases bind_error_iff.1 h with h | ⟨a, -, h⟩
  · exact .inl h
  · rcases bind_error_iff.1 h with h | ⟨b, -, h⟩
    · exact .inr h
    · cases h

namespace Noted

variable {ε ε' α β : Type}

/-- The outcome and the notices of a computation that starts with some notices. -/
def after (x : Noted ε α) (notices : List Notice) : Except ε α × List Notice :=
  Id.run (x.run.run notices)

theorem outcome_eq (x : Noted ε α) : x.outcome = x.after [] := rfl

theorem after_pure (a : α) (s : List Notice) : (pure a : Noted ε α).after s = (.ok a, s) := rfl

theorem after_throw (e : ε) (s : List Notice) :
    (throw e : Noted ε α).after s = (.error e, s) := rfl

theorem after_bind_of_ok {x : Noted ε α} {a : α} {s t : List Notice} (f : α → Noted ε β)
    (h : x.after s = (.ok a, t)) : (x >>= f).after s = (f a).after t := by
  rw [after] at h
  simp only [after, ExceptT.run_bind, StateT.run_bind]
  rw [show StateT.run (ExceptT.run x) s = (.ok a, t) from h]
  rfl

theorem after_bind_of_error {x : Noted ε α} {e : ε} {s t : List Notice} (f : α → Noted ε β)
    (h : x.after s = (.error e, t)) : (x >>= f).after s = (.error e, t) := by
  rw [after] at h
  simp only [after, ExceptT.run_bind, StateT.run_bind]
  rw [show StateT.run (ExceptT.run x) s = (.error e, t) from h]
  rfl

theorem after_bind_ok {x : Noted ε α} {f : α → Noted ε β} {b : β} {s t : List Notice} :
    (x >>= f).after s = (.ok b, t) ↔
      ∃ a u, x.after s = (.ok a, u) ∧ (f a).after u = (.ok b, t) := by
  rcases hx : x.after s with ⟨e | a, u⟩
  · rw [after_bind_of_error f hx]
    simp
  · rw [after_bind_of_ok f hx]
    constructor
    · intro h
      exact ⟨a, u, rfl, h⟩
    · rintro ⟨a', u', ha, h⟩
      simp only [Prod.mk.injEq, Except.ok.injEq] at ha
      obtain ⟨rfl, rfl⟩ := ha
      exact h

theorem after_liftM (e : Except ε α) (s : List Notice) :
    (liftM e : Noted ε α).after s = (e, s) := by
  rcases e with e | a <;> rfl

theorem after_noteAll (notices s : List Notice) :
    (noteAll notices : Noted ε Unit).after s = (.ok (), s ++ notices) := rfl

theorem after_adapt (f : ε → ε') (x : Noted ε α) (s : List Notice) :
    after (ExceptT.adapt f x) s = ((x.after s).1.mapError f, (x.after s).2) := rfl

theorem after_adapt_ok {f : ε → ε'} {x : Noted ε α} {a : α} {s t : List Notice} :
    after (ExceptT.adapt f x) s = (.ok a, t) ↔ x.after s = (.ok a, t) := by
  rw [after_adapt]
  rcases x.after s with ⟨e | b, u⟩ <;> simp [Except.mapError]

end Noted

namespace Ontology

/-- What is read from a graph: its shapes, then the context, and the classes of both. -/
theorem ofGraph_ok_iff [Platform] {source : String} {context : Option Json} {g : Rdf.Graph}
    {o : Ontology} {notices : List Notice} :
    (ofGraph source context g).outcome = (.ok o, notices) ↔
      ∃ shapes read, (Shape.shapesOf g).outcome = (.ok shapes, notices)
        ∧ readContext (source ++ " (context)") context = .ok read
        ∧ o = { shapes, context := read, classes := Shape.classesOf g shapes, source } := by
  rw [Noted.outcome_eq, ofGraph, Noted.after_bind_ok]
  constructor
  · rintro ⟨shapes, s, hshapes, h⟩
    rw [Noted.after_bind_ok] at h
    obtain ⟨read, t, hread, h⟩ := h
    rw [Noted.after_pure] at h
    rw [Noted.after_adapt_ok] at hshapes
    rw [Noted.after_liftM] at hread
    simp only [Prod.mk.injEq, Except.ok.injEq] at h hread
    obtain ⟨rfl, rfl⟩ := h
    obtain ⟨hread, rfl⟩ := hread
    exact ⟨shapes, read, hshapes, hread, rfl⟩
  · rintro ⟨shapes, read, hshapes, hread, rfl⟩
    refine ⟨shapes, notices, Noted.after_adapt_ok.2 hshapes, Noted.after_bind_ok.2 ?_⟩
    exact ⟨read, notices, (Noted.after_liftM _ _).trans (by rw [← hread]; rfl), rfl⟩

/-- Without a context, a graph is read as its shapes are. -/
theorem ofGraph_of_shapes [Platform] {source : String} {g : Rdf.Graph} {o : Ontology}
    {notices : List Notice} (hshapes : (Shape.shapesOf g).outcome = (.ok o.shapes, notices))
    (hclasses : Shape.classesOf g o.shapes = o.classes) (hcontext : o.context = {})
    (hsource : o.source = source) : (ofGraph source none g).outcome = (.ok o, notices) := by
  refine ofGraph_ok_iff.2 ⟨o.shapes, {}, hshapes, rfl, ?_⟩
  rw [hclasses, ← hcontext, ← hsource]

/-- The class models of an ontology, with the notices of their resolution. -/
theorem classModels_ok_iff [Platform] {o : Ontology} {classes : List ClassModel}
    {s t : List Notice} :
    o.classModels.after s = (.ok classes, t) ↔
      o.isWalkable = true ∧ classes = o.resolve.1 ∧ t = s ++ o.resolve.2 := by
  unfold classModels
  by_cases h : o.isWalkable = true
  · rw [if_pos h, Noted.after_bind_of_ok _ (Noted.after_noteAll _ _), Noted.after_pure]
    simp [h, eq_comm]
  · rw [if_neg h, Noted.after_bind_of_ok _ (Noted.after_noteAll _ _), Noted.after_throw]
    simp [h]

end Ontology

/-- What a report is made of: the class models of the ontology, and the files of the generators
that ran. -/
theorem generate_ok_iff [Platform] {o : Ontology} {options : Options} {names : Option (List String)}
    {now : String} {report : Report} {notices : List Notice} :
    (generate o options names now).outcome = (.ok report, notices) ↔
      ∃ generators files, o.isWalkable = true ∧ Generator.choose names = .ok generators
        ∧ Emission.emit options o.resolve.1 generators = .ok files
        ∧ report = ⟨o.source, options.packageName, options.dslName, now,
            generators.map Generator.name, o.resolve.1, o.skipped, files⟩
        ∧ notices = o.resolve.2 := by
  rw [Noted.outcome_eq, generate, Noted.after_bind_ok]
  constructor
  · rintro ⟨classes, s, hs, h⟩
    rw [Noted.after_bind_ok] at h
    obtain ⟨generators, t, hgen, h⟩ := h
    rw [Noted.after_bind_ok] at h
    obtain ⟨files, u, hfiles, h⟩ := h
    obtain ⟨hwalk, rfl, rfl⟩ := Ontology.classModels_ok_iff.1 hs
    rw [Noted.after_liftM, Prod.mk.injEq] at hgen hfiles
    rw [Noted.after_pure, Prod.mk.injEq, Except.ok.injEq] at h
    obtain ⟨hgen, rfl⟩ := hgen
    obtain ⟨hfiles, rfl⟩ := hfiles
    obtain ⟨rfl, rfl⟩ := h
    exact ⟨generators, files, hwalk, hgen, hfiles, rfl, rfl⟩
  · rintro ⟨generators, files, hwalk, hgen, hfiles, rfl, rfl⟩
    refine ⟨o.resolve.1, o.resolve.2, Ontology.classModels_ok_iff.2 ⟨hwalk, rfl, rfl⟩,
      Noted.after_bind_ok.2 ?_⟩
    refine ⟨generators, o.resolve.2, (Noted.after_liftM _ _).trans (by rw [hgen]), ?_⟩
    refine Noted.after_bind_ok.2 ⟨files, o.resolve.2, ?_, rfl⟩
    exact (Noted.after_liftM _ _).trans (by rw [hfiles])

namespace Emission

variable {options : Options} {classes : List ClassModel} {files : List Artifact}

theorem Generator.write_ok_iff {g : Generator} :
    g.write options classes = .ok files ↔
      (g.integers options classes).all Numeral.isWritable = true
        ∧ files = g.artifacts options classes := by
  unfold Generator.write
  by_cases hall : (g.integers options classes).all Numeral.isWritable = true
  · rw [if_pos hall, Except.ok.injEq, eq_comm, and_iff_right hall]
  · rw [if_neg hall]
    exact iff_of_false (by simp) fun h => hall h.1

theorem Generator.run_ok_iff {g : Generator} :
    g.run options classes = .ok files ↔
      (g = .instanceDsl → checkDslNames options classes = .ok ())
        ∧ (g.integers options classes).all Numeral.isWritable = true
        ∧ files = g.artifacts options classes := by
  rw [← Generator.write_ok_iff]
  unfold Generator.run
  by_cases hg : g = .instanceDsl
  · rw [if_pos hg, bind_ok_iff]
    exact ⟨fun ⟨_, hcheck, h⟩ => ⟨fun _ => hcheck, h⟩, fun ⟨hcheck, h⟩ => ⟨(), hcheck hg, h⟩⟩
  · rw [if_neg hg]
    exact ⟨fun h => ⟨fun h' => absurd h' hg, h⟩, fun h => h.2⟩

theorem emit_cons (g : Generator) (generators : List Generator) :
    emit options classes (g :: generators) = (do
      let own ← g.run options classes
      let rest ← emit options classes generators
      return own ++ rest) := by
  simp [emit]

/-- Generators run through, each with its own files, unless one of them fails. -/
theorem emit_ok_iff {generators : List Generator} :
    emit options classes generators = .ok files ↔
      (.instanceDsl ∈ generators → checkDslNames options classes = .ok ())
        ∧ (∀ g ∈ generators, (g.integers options classes).all Numeral.isWritable = true)
        ∧ files = generators.flatMap (Generator.artifacts options classes) := by
  induction generators generalizing files with
  | nil =>
    have hnil : emit options classes [] = .ok [] := rfl
    simp [hnil, eq_comm (a := ([] : List Artifact))]
  | cons g generators ih =>
    rw [emit_cons, bind_ok_iff]
    constructor
    · rintro ⟨own, hown, h⟩
      obtain ⟨rest, hrest, h⟩ := bind_ok_iff.1 h
      obtain ⟨hdsl, hwritten, rfl⟩ := Generator.run_ok_iff.1 hown
      obtain ⟨hdsl', hwritten', rfl⟩ := ih.1 hrest
      refine ⟨?_, List.forall_mem_cons.2 ⟨hwritten, hwritten'⟩, (Except.ok.inj h).symm⟩
      rintro (_ | ⟨_, hmem⟩)
      · exact hdsl rfl
      · exact hdsl' hmem
    · rintro ⟨hdsl, hwritten, rfl⟩
      obtain ⟨hown, hrest⟩ := List.forall_mem_cons.1 hwritten
      refine ⟨_, Generator.run_ok_iff.2 ⟨fun hg => hdsl (hg ▸ List.mem_cons_self), hown, rfl⟩, ?_⟩
      exact bind_ok_iff.2
        ⟨_, ih.2 ⟨fun hmem => hdsl (List.mem_cons_of_mem _ hmem), hrest, rfl⟩, rfl⟩

/-- No generator comes to an integer that cannot be written. -/
def IsWritten (options : Options) (classes : List ClassModel) : Prop :=
  ∀ g ∈ Generator.all, (g.integers options classes).all Numeral.isWritable = true

instance (options : Options) (classes : List ClassModel) : Decidable (IsWritten options classes) :=
  inferInstanceAs (Decidable (∀ g ∈ Generator.all, _))

end Emission

/-- All generators run through unless a name of the DSL is in use or an integer cannot be written,
and each adds its files. -/
theorem emit_all_ok_iff {options : Options} {classes : List ClassModel} {files : List Artifact} :
    Emission.emit options classes Generator.all = .ok files ↔
      Emission.checkDslNames options classes = .ok () ∧ Emission.IsWritten options classes
        ∧ files = Emission.interfaces options classes ++ Emission.wrappers options classes
          ++ Emission.validation options classes
          ++ [{ path := options.modulePath "dsl", kind := .instanceDsl
                source := Emission.dslModule options classes }]
          ++ Emission.package options classes := by
  rw [Emission.emit_ok_iff]
  simp [Generator.all, Emission.IsWritten, Generator.artifacts, Emission.instanceDsl]

/-- Without a choice of generators, a package is refused for the depth of its hierarchy, the names
of its DSL and integers that cannot be written only. -/
theorem generate_default_iff [Platform] {o : Ontology} {options : Options} {now : String} :
    (∃ report notices, (generate o options none now).outcome = (.ok report, notices)) ↔
      o.isWalkable = true ∧ Emission.checkDslNames options o.resolve.1 = .ok ()
        ∧ Emission.IsWritten options o.resolve.1 := by
  constructor
  · rintro ⟨report, notices, h⟩
    obtain ⟨generators, files, hwalk, hgen, hemit, -, -⟩ := generate_ok_iff.1 h
    cases hgen
    obtain ⟨hcheck, hwritten, -⟩ := emit_all_ok_iff.1 hemit
    exact ⟨hwalk, hcheck, hwritten⟩
  · rintro ⟨hwalk, hcheck, hwritten⟩
    exact ⟨_, _, generate_ok_iff.2
      ⟨_, _, hwalk, rfl, emit_all_ok_iff.2 ⟨hcheck, hwritten, rfl⟩, rfl, rfl⟩⟩

end ShapeForge
