import ShapeForge.Model.Walk
import ShapeForge.Proofs.ClassNames

/-!
# Resolved classes

The classes that are resolved form a list in which each one comes after the super classes that it
was made from, and no class comes twice (`Built`). Every call of `resolveClass` extends such a list
by classes that were available, up to the class that it answers (`resolveClass_built`).

So each class of a resolution is made from the models of the super classes that it records, as
they are in the end (`eq_classModel_of_mem_resolve`), a class is known by its name
(`eq_of_className_eq`), and what passes from super classes to a class holds of all classes
(`resolve_induction`).
-/

namespace ShapeForge

/-- A member that no other has the key of is what its key finds. -/
theorem find_of_inj {α : Type} {f : α → String} {l : List α} {a : α} (ha : a ∈ l)
    (h : ∀ b ∈ l, f b = f a → b = a) : l.find? (fun b => f b == f a) = some a := by
  rcases hf : l.find? fun b => f b == f a with _ | b
  · exact absurd (List.find?_eq_none.1 hf a ha) (by simp)
  · have hb : f b = f a := by simpa using List.find?_some hf
    rw [h b (List.mem_of_find?_eq_some hf) hb]

/-- The names of a class model. -/
def ClassModel.names (c : ClassModel) : ClassNames := ⟨c.className, c.moduleName, c.builderName⟩

namespace Model

variable (o : Ontology) (names : List (String × ClassNames))

/-- The classes that are resolved, in order: each was made from earlier ones, which are among the
super classes that its declaration gives it. -/
inductive Built : List (String × ClassModel) → Prop
  | start : Built []
  | extend {models : List (String × ClassModel)} {iri : String} {supers : List ClassModel} :
      Built models → iri ∉ models.map (·.1) → (∀ s ∈ supers, (s.iri, s) ∈ models) →
      (supers.map ClassModel.iri).Sublist (o.supersOf iri) →
      Built (models ++ [(iri, (classModel o names iri supers).1)])

theorem classModel_iri (iri : String) (supers : List ClassModel) :
    (classModel o names iri supers).1.iri = iri := rfl

theorem classModel_supers (iri : String) (supers : List ClassModel) :
    (classModel o names iri supers).1.supers = supers.map ClassModel.className := rfl

theorem classModel_names {iri : String} {n : ClassNames} (h : Assoc.get? iri names = some n)
    (supers : List ClassModel) : (classModel o names iri supers).1.names = n := by
  simp only [classModel, ClassModel.names, h, Option.getD_some]

namespace Built

variable {o names} {models : List (String × ClassModel)}

theorem keys (h : Built o names models) : models.Pairwise (·.1 ≠ ·.1) := by
  induction h with
  | start => exact .nil
  | extend _ hnew _ _ ih =>
    refine List.pairwise_append.2 ⟨ih, List.pairwise_singleton _ _, fun e he d hd => ?_⟩
    rw [List.mem_singleton] at hd
    subst hd
    exact fun heq => hnew (List.mem_map.2 ⟨e, he, heq⟩)

theorem iri_eq (h : Built o names models) : ∀ e ∈ models, e.2.iri = e.1 := by
  induction h with
  | start => simp
  | extend _ _ _ _ ih =>
    intro e he
    rcases List.mem_append.1 he with he | he
    · exact ih e he
    · rw [List.mem_singleton] at he
      subst he
      exact classModel_iri _ _ _ _

theorem eq_of_iri_eq (h : Built o names models) {c d : ClassModel} (hc : (c.iri, c) ∈ models)
    (hd : (d.iri, d) ∈ models) (heq : c.iri = d.iri) : c = d := by
  have h1 := Assoc.get?_of_mem h.keys hc
  have h2 := Assoc.get?_of_mem h.keys hd
  rw [heq, h2] at h1
  exact (Option.some.inj h1).symm

/-- Every class was made from classes of the list. -/
theorem exists_supers (h : Built o names models) : ∀ e ∈ models, ∃ supers : List ClassModel,
    e.2 = (classModel o names e.1 supers).1 ∧ (∀ s ∈ supers, (s.iri, s) ∈ models)
      ∧ (supers.map ClassModel.iri).Sublist (o.supersOf e.1) := by
  induction h with
  | start => simp
  | @extend models iri supers _ _ hs hsub ih =>
    intro e he
    rcases List.mem_append.1 he with he | he
    · obtain ⟨ss, heq, hmem, hss⟩ := ih e he
      exact ⟨ss, heq, fun s hs => List.mem_append_left _ (hmem s hs), hss⟩
    · rw [List.mem_singleton] at he
      subst he
      exact ⟨supers, rfl, fun s h => List.mem_append_left _ (hs s h), hsub⟩

/-- What holds of a class if it holds of those that it was made from holds of all classes. -/
theorem induct (h : Built o names models) {P : ClassModel → Prop} :
    (∀ iri supers, (iri, (classModel o names iri supers).1) ∈ models →
      (∀ s ∈ supers, (s.iri, s) ∈ models ∧ P s) → P (classModel o names iri supers).1) →
    ∀ e ∈ models, P e.2 := by
  induction h with
  | start => simp
  | @extend models iri supers _ _ hs _ ih =>
    intro step
    have hold : ∀ e ∈ models, P e.2 := ih fun i ss hm hss =>
      step i ss (List.mem_append_left _ hm) fun s h =>
        ⟨List.mem_append_left _ (hss s h).1, (hss s h).2⟩
    intro e he
    rcases List.mem_append.1 he with he | he
    · exact hold e he
    · rw [List.mem_singleton] at he
      subst he
      exact step iri supers (by simp) fun s h =>
        ⟨List.mem_append_left _ (hs s h), hold _ (hs s h)⟩

end Built

/-! ## Calls -/

/-- What the resolution of a class does to the list of resolved classes. -/
def Resolves (available : List String) (iri : String) (r : Resolved) : Prop :=
  Built o names r.models → available.Nodup → iri ∉ available →
    Built o names (resolveClass o names available iri r).2.models
      ∧ r.models <+: (resolveClass o names available iri r).2.models
      ∧ (iri, (resolveClass o names available iri r).1)
          ∈ (resolveClass o names available iri r).2.models
      ∧ ∀ e ∈ (resolveClass o names available iri r).2.models,
          e ∈ r.models ∨ e.1 = iri ∨ e.1 ∈ available

/-- What the resolution of super classes does to the list of resolved classes. -/
def ResolvesSupers (available supers : List String) (r : Resolved) : Prop :=
  Built o names r.models → available.Nodup →
    Built o names (resolveSupers o names available supers r).2.models
      ∧ r.models <+: (resolveSupers o names available supers r).2.models
      ∧ (∀ m ∈ (resolveSupers o names available supers r).1,
          (m.iri, m) ∈ (resolveSupers o names available supers r).2.models)
      ∧ ((resolveSupers o names available supers r).1.map ClassModel.iri).Sublist supers
      ∧ ∀ e ∈ (resolveSupers o names available supers r).2.models,
          e ∈ r.models ∨ e.1 ∈ available

theorem resolves_known {available : List String} {iri : String} {r : Resolved} {model : ClassModel}
    (h : Assoc.get? iri r.models = some model) : Resolves o names available iri r := by
  intro hb _ _
  have heq : resolveClass o names available iri r = (model, r) := by
    rw [resolveClass, h]
  rw [heq]
  exact ⟨hb, List.prefix_rfl, Assoc.mem_of_get? h, fun e he => .inl he⟩

/-- A class that is not known yet is added after its super classes. While they were resolved it
was not available, so it has not been added in between. -/
theorem resolves_new {available : List String} {iri : String} {r : Resolved}
    (h : Assoc.get? iri r.models = none)
    (ih : ResolvesSupers o names available (o.supersOf iri) r) :
    Resolves o names available iri r := by
  intro hb hnd hiri
  obtain ⟨hb', hpre, hmem, hsub, hkeys⟩ := ih hb hnd
  have heq : resolveClass o names available iri r =
      ((classModel o names iri (resolveSupers o names available (o.supersOf iri) r).1).1,
        { models := (resolveSupers o names available (o.supersOf iri) r).2.models
            ++ [(iri, (classModel o names iri
              (resolveSupers o names available (o.supersOf iri) r).1).1)]
          notices := (resolveSupers o names available (o.supersOf iri) r).2.notices
            ++ (classModel o names iri
              (resolveSupers o names available (o.supersOf iri) r).1).2 }) := by
    rw [resolveClass, h]
  have hnew : iri ∉ (resolveSupers o names available (o.supersOf iri) r).2.models.map (·.1) := by
    intro hin
    obtain ⟨e, he, rfl⟩ := List.mem_map.1 hin
    rcases hkeys e he with he | he
    · exact Assoc.get?_eq_none_iff.1 h (List.mem_map_of_mem he)
    · exact hiri he
  rw [heq]
  refine ⟨.extend hb' hnew hmem hsub, hpre.trans (List.prefix_append _ _), by simp, ?_⟩
  intro e he
  rcases List.mem_append.1 he with he | he
  · exact (hkeys e he).imp_right .inr
  · rw [List.mem_singleton] at he
    exact .inr (.inl (by rw [he]))

theorem resolvesSupers_cons {available : List String} {super : String} {rest : List String}
    {r : Resolved} (hs : super ∈ available)
    (ih₁ : Resolves o names (available.erase super) super r)
    (ih₂ : ResolvesSupers o names available rest
      (resolveClass o names (available.erase super) super r).2) :
    ResolvesSupers o names available (super :: rest) r := by
  intro hb hnd
  obtain ⟨hb₁, hpre₁, hmem₁, hkeys₁⟩ := ih₁ hb (hnd.erase _) hnd.not_mem_erase
  obtain ⟨hb₂, hpre₂, hmem₂, hsub₂, hkeys₂⟩ := ih₂ hb₁ hnd
  have hiri := hb₁.iri_eq _ hmem₁
  have heq : resolveSupers o names available (super :: rest) r =
      ((resolveClass o names (available.erase super) super r).1
          :: (resolveSupers o names available rest
            (resolveClass o names (available.erase super) super r).2).1,
        (resolveSupers o names available rest
          (resolveClass o names (available.erase super) super r).2).2) := by
    rw [resolveSupers, dif_pos hs]
  rw [heq]
  refine ⟨hb₂, hpre₁.trans hpre₂, ?_, ?_, ?_⟩
  · intro m hm
    rcases List.mem_cons.1 hm with rfl | hm
    · rw [hiri]
      exact hpre₂.subset hmem₁
    · exact hmem₂ m hm
  · rw [List.map_cons, hiri]
    exact hsub₂.cons_cons super
  · intro e he
    rcases hkeys₂ e he with he | he
    · rcases hkeys₁ e he with he | he | he
      · exact .inl he
      · exact .inr (he ▸ hs)
      · exact .inr (List.mem_of_mem_erase he)
    · exact .inr he

/-- Both kinds of calls do what they should, by induction on the calls. -/
theorem resolveClass_built :
    (∀ available iri r, Resolves o names available iri r)
      ∧ ∀ available supers r, ResolvesSupers o names available supers r := by
  refine resolveClass.mutual_induct o names (Resolves o names) (ResolvesSupers o names)
    ?_ ?_ ?_ ?_ ?_
  · intro available iri r model h
    exact resolves_known o names h
  · intro available iri r h _ _ _ _ _ _ ih
    exact resolves_new o names h ih
  · intro available r hb _
    rw [resolveSupers]
    exact ⟨hb, List.prefix_rfl, by simp, by simp, fun e he => .inl he⟩
  · intro available r super rest hs model r₁ heq _ _ _ ih₁ ih₂
    refine resolvesSupers_cons o names hs ih₁ ?_
    rw [heq]
    exact ih₂
  · intro available r super rest hs ih hb hnd
    obtain ⟨hb', hpre, hmem, hsub, hkeys⟩ := ih hb hnd
    rw [resolveSupers, dif_neg hs]
    exact ⟨hb', hpre, hmem, hsub.cons super, hkeys⟩

/-- Resolving classes in order answers the model of each of them, all from one list. -/
theorem resolveAll_built {available : List String} (hnd : available.Nodup) :
    ∀ (iris : List String) (r : Resolved), Built o names r.models → iris ⊆ available →
      Built o names (resolveAll o names available iris r).2.models
        ∧ r.models <+: (resolveAll o names available iris r).2.models
        ∧ (resolveAll o names available iris r).1.map ClassModel.iri = iris
        ∧ (∀ m ∈ (resolveAll o names available iris r).1,
            (m.iri, m) ∈ (resolveAll o names available iris r).2.models)
        ∧ ∀ e ∈ (resolveAll o names available iris r).2.models, e ∈ r.models ∨ e.1 ∈ available
  | [], r, hb, _ => ⟨hb, List.prefix_rfl, rfl, by simp [resolveAll], fun e he => .inl he⟩
  | iri :: rest, r, hb, hsub => by
    have hiri : iri ∈ available := hsub List.mem_cons_self
    obtain ⟨hb₁, hpre₁, hmem₁, hkeys₁⟩ := (resolveClass_built o names).1 (available.erase iri) iri r
      hb (hnd.erase _) hnd.not_mem_erase
    obtain ⟨hb₂, hpre₂, hmap₂, hmem₂, hkeys₂⟩ := resolveAll_built hnd rest
      (resolveClass o names (available.erase iri) iri r).2 hb₁ fun x hx =>
        hsub (List.mem_cons_of_mem _ hx)
    have heq := hb₁.iri_eq _ hmem₁
    simp only [resolveAll]
    refine ⟨hb₂, hpre₁.trans hpre₂, ?_, ?_, ?_⟩
    · rw [List.map_cons, hmap₂, heq]
    · intro m hm
      rcases List.mem_cons.1 hm with rfl | hm
      · rw [heq]
        exact hpre₂.subset hmem₁
      · exact hmem₂ m hm
    · intro e he
      rcases hkeys₂ e he with he | he
      · rcases hkeys₁ e he with he | he | he
        · exact .inl he
        · exact .inr (he ▸ hiri)
        · exact .inr (List.mem_of_mem_erase he)
      · exact .inr he

end Model

/-! ## The classes of an ontology -/

namespace Ontology

open Model (Built nameClasses classModel)

variable (o : Ontology)

theorem classNames_keys_nodup : (o.classNames.map (·.1)).Nodup := by
  rw [List.Nodup, List.pairwise_map]
  exact (Model.nameClasses_sound o.matched).keys

theorem mem_classNames_keys {iri : String} :
    iri ∈ o.classNames.map (·.1) ↔ iri ∈ o.matched.map DeclaredClass.iri :=
  Model.mem_keys_nameClasses

/-- The class models of an ontology are those of one list of resolved classes. -/
theorem exists_built : ∃ models, Built o o.classNames models
    ∧ o.resolve.1.map ClassModel.iri = o.matched.map DeclaredClass.iri
    ∧ ∀ c, c ∈ o.resolve.1 ↔ (c.iri, c) ∈ models := by
  obtain ⟨hb, -, hmap, hmem, hkeys⟩ := Model.resolveAll_built o o.classNames
    o.classNames_keys_nodup (o.matched.map DeclaredClass.iri) {} .start
    fun iri h => o.mem_classNames_keys.2 h
  refine ⟨_, hb, hmap, fun c => ⟨hmem c, fun hc => ?_⟩⟩
  rcases hkeys _ hc with hc' | hc'
  · simp at hc'
  rw [o.mem_classNames_keys, ← hmap] at hc'
  obtain ⟨d, hd, heq⟩ := List.mem_map.1 hc'
  rw [← hb.eq_of_iri_eq (hmem d hd) hc heq]
  exact hd

theorem resolve_iris : o.resolve.1.map ClassModel.iri = o.matched.map DeclaredClass.iri := by
  obtain ⟨_, _, h, _⟩ := o.exists_built
  exact h

theorem eq_of_iri_eq {c d : ClassModel} (hc : c ∈ o.resolve.1) (hd : d ∈ o.resolve.1)
    (h : c.iri = d.iri) : c = d := by
  obtain ⟨_, hb, _, hmem⟩ := o.exists_built
  exact hb.eq_of_iri_eq ((hmem c).1 hc) ((hmem d).1 hd) h

/-- The names of a class model are those that its class was given. -/
theorem mem_classNames_of_mem_resolve {c : ClassModel} (hc : c ∈ o.resolve.1) :
    (c.iri, c.names) ∈ o.classNames := by
  obtain ⟨_, hb, hmap, hmem⟩ := o.exists_built
  obtain ⟨supers, heq, -, -⟩ := hb.exists_supers _ ((hmem c).1 hc)
  have hkey : c.iri ∈ o.classNames.map (·.1) := by
    rw [mem_classNames_keys, ← hmap]
    exact List.mem_map_of_mem hc
  rcases hn : Assoc.get? c.iri o.classNames with _ | n
  · exact absurd hkey (Assoc.get?_eq_none_iff.1 hn)
  · have hnames := Model.classModel_names o o.classNames hn supers
    rw [← heq] at hnames
    rw [hnames]
    exact Assoc.mem_of_get? hn

/-- Different class models have names apart. -/
theorem apart_of_iri_ne {c d : ClassModel} (hc : c ∈ o.resolve.1) (hd : d ∈ o.resolve.1)
    (h : c.iri ≠ d.iri) : c.names.Apart d.names := by
  have : Std.Symm fun a b : String × ClassNames => a.2.Apart b.2 :=
    ⟨fun _ _ => ClassNames.Apart.symm⟩
  exact (Model.nameClasses_sound o.matched).apart.forall (o.mem_classNames_of_mem_resolve hc)
    (o.mem_classNames_of_mem_resolve hd) fun heq => h (congrArg Prod.fst heq)

theorem eq_of_className_eq {c d : ClassModel} (hc : c ∈ o.resolve.1) (hd : d ∈ o.resolve.1)
    (h : c.className = d.className) : c = d := by
  by_contra hne
  have hiri : c.iri ≠ d.iri := fun heq => hne (o.eq_of_iri_eq hc hd heq)
  refine (o.apart_of_iri_ne hc hd hiri).classes (a := c.className) ?_ ?_
  · simp [ClassNames.classPool, ClassModel.names]
  · simp [ClassNames.classPool, ClassModel.names, h]

end Ontology

/-- The models of the super classes that a class records, by name. -/
def superModels (models : List ClassModel) (c : ClassModel) : List ClassModel :=
  c.supers.filterMap fun name => models.find? fun m => m.className == name

namespace Ontology

variable (o : Ontology)

theorem find_className {c : ClassModel} (hc : c ∈ o.resolve.1) :
    (o.resolve.1.find? fun m => m.className == c.className) = some c :=
  find_of_inj hc fun _ hd h => o.eq_of_className_eq hd hc h

/-- The recorded names of super classes lead back to their models. -/
theorem superModels_eq {c : ClassModel} {supers : List ClassModel}
    (hnames : c.supers = supers.map ClassModel.className)
    (hsupers : ∀ s ∈ supers, s ∈ o.resolve.1) : superModels o.resolve.1 c = supers := by
  have hfind : ∀ s ∈ supers, ((fun name => o.resolve.1.find? fun m => m.className == name)
      ∘ ClassModel.className) s = some s := fun s h => o.find_className (hsupers s h)
  rw [superModels, hnames, List.filterMap_map, List.filterMap_congr hfind, List.filterMap_some]

/-- Every class is made from the models of the super classes that it records. -/
theorem eq_classModel_of_mem_resolve {c : ClassModel} (hc : c ∈ o.resolve.1) :
    c = (Model.classModel o o.classNames c.iri (superModels o.resolve.1 c)).1
      ∧ (∀ s ∈ superModels o.resolve.1 c, s ∈ o.resolve.1)
      ∧ ((superModels o.resolve.1 c).map ClassModel.iri).Sublist (o.supersOf c.iri) := by
  obtain ⟨_, hb, _, hmem⟩ := o.exists_built
  obtain ⟨supers, heq, hs, hsub⟩ := hb.exists_supers _ ((hmem c).1 hc)
  have hsupers : ∀ s ∈ supers, s ∈ o.resolve.1 := fun s h => (hmem s).2 (hs s h)
  have hnames : c.supers = supers.map ClassModel.className :=
    (congrArg ClassModel.supers heq).trans (Model.classModel_supers _ _ _ _)
  rw [o.superModels_eq hnames hsupers]
  exact ⟨heq, hsupers, hsub⟩

theorem supers_eq {c : ClassModel} (hc : c ∈ o.resolve.1) :
    c.supers = (superModels o.resolve.1 c).map ClassModel.className :=
  congrArg ClassModel.supers (o.eq_classModel_of_mem_resolve hc).1

theorem mem_resolve_of_mem_superModels {c s : ClassModel} (hc : c ∈ o.resolve.1)
    (hs : s ∈ superModels o.resolve.1 c) : s ∈ o.resolve.1 :=
  (o.eq_classModel_of_mem_resolve hc).2.1 s hs

/-- What holds of a class if it holds of its super classes holds of all classes. -/
theorem resolve_induction {P : ClassModel → Prop}
    (step : ∀ c ∈ o.resolve.1, (∀ s ∈ superModels o.resolve.1 c, P s) → P c) :
    ∀ c ∈ o.resolve.1, P c := by
  obtain ⟨_, hb, _, hmem⟩ := o.exists_built
  intro c hc
  refine hb.induct (fun iri supers hin hs => ?_) _ ((hmem c).1 hc)
  have hc' : (Model.classModel o o.classNames iri supers).1 ∈ o.resolve.1 := (hmem _).2 hin
  refine step _ hc' fun s h => ?_
  rw [o.superModels_eq (Model.classModel_supers _ _ _ _) fun s h => (hmem s).2 (hs s h).1] at h
  exact (hs s h).2

end Ontology

/-! ## Evaluation

Resolution recurses on the classes that are left, which no reduction can follow. The same calls
bounded in depth can be evaluated. -/

namespace Model

variable (o : Ontology) (names : List (String × ClassNames))

/-- Resolves those classes of a list that are available, each by the given function. -/
def resolveEach (resolve : String → Resolved → ClassModel × Resolved) (available : List String) :
    List String → Resolved → List ClassModel × Resolved
  | [], r => ([], r)
  | iri :: rest, r =>
    if iri ∈ available then
      let (model, r) := resolve iri r
      let (models, r) := resolveEach resolve available rest r
      (model :: models, r)
    else resolveEach resolve available rest r

/-- Resolves a class by calls that are at most `depth` deep. -/
def resolveWithin : ℕ → List String → String → Resolved → ClassModel × Resolved
  | 0, _, iri, r => ((classModel o names iri []).1, r)
  | depth + 1, available, iri, r =>
    match Assoc.get? iri r.models with
    | some model => (model, r)
    | none =>
      let (supers, r) :=
        resolveEach (fun super => resolveWithin depth (available.erase super) super) available
          (o.supersOf iri) r
      let (model, notices) := classModel o names iri supers
      (model, { models := r.models ++ [(iri, model)], notices := r.notices ++ notices })

theorem resolveSupers_eq_resolveEach {available : List String}
    {resolve : String → Resolved → ClassModel × Resolved}
    (h : ∀ super ∈ available, ∀ r,
      resolveClass o names (available.erase super) super r = resolve super r) :
    ∀ (supers : List String) (r : Resolved),
      resolveSupers o names available supers r = resolveEach resolve available supers r
  | [], r => by rw [resolveSupers, resolveEach]
  | super :: rest, r => by
    rw [resolveSupers, resolveEach]
    by_cases hs : super ∈ available
    · rw [dif_pos hs, if_pos hs, h super hs]
      simp only [resolveSupers_eq_resolveEach h rest]
    · rw [dif_neg hs, if_neg hs, resolveSupers_eq_resolveEach h rest]

/-- Calls are no deeper than there are available classes. -/
theorem resolveClass_eq_resolveWithin : ∀ (depth : ℕ) (available : List String),
    available.length < depth → ∀ (iri : String) (r : Resolved),
      resolveClass o names available iri r = resolveWithin o names depth available iri r
  | 0, _, h, _, _ => absurd h (Nat.not_lt_zero _)
  | depth + 1, available, h, iri, r => by
    have hs : ∀ super ∈ available, ∀ r, resolveClass o names (available.erase super) super r
        = resolveWithin o names depth (available.erase super) super r := by
      intro super hm r
      have hlen := List.length_erase_of_mem hm
      have hpos := List.length_pos_of_mem hm
      exact resolveClass_eq_resolveWithin depth _ (by omega) super r
    rewrite [resolveClass, resolveWithin, resolveSupers_eq_resolveEach o names hs]
    rfl

theorem resolveAll_eq_resolveEach {available : List String}
    {resolve : String → Resolved → ClassModel × Resolved}
    (h : ∀ iri ∈ available, ∀ r,
      resolveClass o names (available.erase iri) iri r = resolve iri r) :
    ∀ (iris : List String) (r : Resolved), iris ⊆ available →
      resolveAll o names available iris r = resolveEach resolve available iris r
  | [], r, _ => rfl
  | iri :: rest, r, hsub => by
    have hiri : iri ∈ available := hsub List.mem_cons_self
    have hrest : rest ⊆ available := fun x hx => hsub (List.mem_cons_of_mem _ hx)
    rw [resolveAll, resolveEach, if_pos hiri, h iri hiri]
    simp only [resolveAll_eq_resolveEach h rest _ hrest]

end Model

namespace Ontology

variable (o : Ontology)

/-- The class models, by calls of bounded depth. -/
def evaluate : List ClassModel :=
  let available := o.classNames.map (·.1)
  (Model.resolveEach
    (fun iri => Model.resolveWithin o o.classNames (available.length + 1) (available.erase iri) iri)
    available (o.matched.map DeclaredClass.iri) {}).1

theorem resolve_eq_evaluate : o.resolve.1 = o.evaluate := by
  have hcall : ∀ iri ∈ o.classNames.map (·.1), ∀ r,
      Model.resolveClass o o.classNames ((o.classNames.map (·.1)).erase iri) iri r
        = Model.resolveWithin o o.classNames ((o.classNames.map (·.1)).length + 1)
          ((o.classNames.map (·.1)).erase iri) iri r := by
    intro iri _ r
    have hle := (o.classNames.map (·.1)).length_erase_le (a := iri)
    exact Model.resolveClass_eq_resolveWithin o o.classNames _ _ (by omega) iri r
  have hall := Model.resolveAll_eq_resolveEach o o.classNames hcall
    (o.matched.map DeclaredClass.iri) {} fun iri h => o.mem_classNames_keys.2 h
  exact congrArg Prod.fst hall

end Ontology

end ShapeForge
