import ShapeForge.Proofs.Inheritance
import ShapeForge.Proofs.Marks

/-!
# The class hierarchy

While a class is resolved, the classes that are not available are those of the calls that are open,
and each of them leads up to the class (`Call`). So a super class is left out only if it leads back
to the class (`resolveAll_cut`): circles are cut where they close, and nowhere else.

What is recorded has no circles, since every class comes after those that it was made from
(`Ontology.not_ancestor_self`). In a hierarchy without circles nothing is left out: a class records
all emitted super classes, in the order of its declaration (`Ontology.superModels_iris`).
-/

namespace ShapeForge

namespace Model

variable (o : Ontology) (names : List (String × ClassNames))

/-- One step up the hierarchy, between classes that have names. -/
def Up (c s : String) : Prop := c ∈ names.map (·.1) ∧ s ∈ names.map (·.1) ∧ s ∈ o.supersOf c

/-- Every class was made from those super classes that were available, and a class that was not
available leads up to it. -/
def CutAtCircles (models : List (String × ClassModel)) : Prop :=
  ∀ e ∈ models, ∃ (supers : List ClassModel) (available : List String),
    e.2 = (classModel o names e.1 supers).1 ∧ (∀ s ∈ supers, (s.iri, s) ∈ models)
      ∧ supers.map ClassModel.iri = (o.supersOf e.1).filter (· ∈ available)
      ∧ available ⊆ names.map (·.1)
      ∧ ∀ x ∈ names.map (·.1), x ∉ available → Relation.ReflTransGen (Up o names) x e.1

/-- What holds when the resolution of a class is called. The classes that are not available are
those of the open calls, which lead up to the class. -/
structure Call (available : List String) (iri : String) (r : Resolved) : Prop where
  built : Built o names r.models
  cut : CutAtCircles o names r.models
  nodup : available.Nodup
  subset : available ⊆ names.map (·.1)
  named : iri ∈ names.map (·.1)
  open_self : iri ∉ available
  leads : ∀ x ∈ names.map (·.1), x ∉ available → Relation.ReflTransGen (Up o names) x iri

variable {o names} {available : List String} {iri : String} {r : Resolved}

theorem CutAtCircles.extend {models : List (String × ClassModel)} {supers : List ClassModel}
    (h : CutAtCircles o names models) (hmem : ∀ s ∈ supers, (s.iri, s) ∈ models)
    (hiris : supers.map ClassModel.iri = (o.supersOf iri).filter (· ∈ available))
    (hsub : available ⊆ names.map (·.1))
    (hleads : ∀ x ∈ names.map (·.1), x ∉ available → Relation.ReflTransGen (Up o names) x iri) :
    CutAtCircles o names (models ++ [(iri, (classModel o names iri supers).1)]) := by
  intro e he
  rcases List.mem_append.1 he with he | he
  · obtain ⟨ss, av, heq, hss, hrest⟩ := h e he
    exact ⟨ss, av, heq, fun s hs => List.mem_append_left _ (hss s hs), hrest⟩
  · rw [List.mem_singleton] at he
    subst he
    exact ⟨supers, available, rfl, fun s hs => List.mem_append_left _ (hmem s hs), hiris, hsub,
      hleads⟩

/-- The call for a super class: the class itself is one more open call below it. -/
theorem Call.super (h : Call o names available iri r) {super : String} (hs : super ∈ available)
    (hup : super ∈ o.supersOf iri) : Call o names (available.erase super) super r where
  built := h.built
  cut := h.cut
  nodup := h.nodup.erase _
  subset := fun _ hx => h.subset (List.mem_of_mem_erase hx)
  named := h.subset hs
  open_self := h.nodup.not_mem_erase
  leads := by
    intro x hx hnot
    by_cases hxs : x = super
    · rw [hxs]
    · have hnot' : x ∉ available := fun hx' => hnot ((List.mem_erase_of_ne hxs).2 hx')
      exact (h.leads x hx hnot').tail ⟨h.named, h.subset hs, hup⟩

theorem resolveSupers_iris (hnd : available.Nodup) : ∀ (supers : List String) (r : Resolved),
    Built o names r.models →
      (resolveSupers o names available supers r).1.map ClassModel.iri
        = supers.filter (· ∈ available)
  | [], r, _ => by rw [resolveSupers]; rfl
  | super :: rest, r, hb => by
    rw [resolveSupers]
    by_cases hs : super ∈ available
    · obtain ⟨hb', -, hmem, -⟩ := (resolveClass_built o names).1 (available.erase super) super r hb
        (hnd.erase _) hnd.not_mem_erase
      have hiri := hb'.iri_eq _ hmem
      rw [dif_pos hs, List.filter_cons_of_pos (by simpa using hs)]
      rw [List.map_cons, hiri, resolveSupers_iris hnd rest _ hb']
    · rw [dif_neg hs, List.filter_cons_of_neg (by simpa using hs)]
      exact resolveSupers_iris hnd rest r hb

variable (o names)

/-- Circles stay cut when a class is resolved. -/
def CutsClass (available : List String) (iri : String) (r : Resolved) : Prop :=
  Call o names available iri r →
    CutAtCircles o names (resolveClass o names available iri r).2.models

/-- Circles stay cut when super classes of a class are resolved. -/
def CutsSupers (available supers : List String) (r : Resolved) : Prop :=
  ∀ iri, Call o names available iri r → supers ⊆ o.supersOf iri →
    CutAtCircles o names (resolveSupers o names available supers r).2.models

theorem cutsClass_new (h : Assoc.get? iri r.models = none)
    (ih : CutsSupers o names available (o.supersOf iri) r) : CutsClass o names available iri r := by
  intro hcall
  have hcut := ih iri hcall fun _ hx => hx
  obtain ⟨-, -, hmem, -⟩ := (resolveClass_built o names).2 available (o.supersOf iri) r hcall.built
    hcall.nodup
  have hiris := resolveSupers_iris hcall.nodup (o.supersOf iri) r hcall.built
  rw [resolveClass, h]
  exact hcut.extend hmem hiris hcall.subset hcall.leads

theorem cutsSupers_cons {super : String} {rest : List String} (hs : super ∈ available)
    (ih₁ : CutsClass o names (available.erase super) super r)
    (ih₂ : CutsSupers o names available rest
      (resolveClass o names (available.erase super) super r).2) :
    CutsSupers o names available (super :: rest) r := by
  intro iri hcall hsub
  have hsuper := hcall.super hs (hsub List.mem_cons_self)
  obtain ⟨hb, -⟩ := (resolveClass_built o names).1 (available.erase super) super r hsuper.built
    hsuper.nodup hsuper.open_self
  have hnext :
      Call o names available iri (resolveClass o names (available.erase super) super r).2 :=
    { hcall with built := hb, cut := ih₁ hsuper }
  rw [resolveSupers, dif_pos hs]
  exact ih₂ iri hnext fun x hx => hsub (List.mem_cons_of_mem _ hx)

/-- Both kinds of calls keep circles cut, by induction on the calls. -/
theorem resolveClass_cut :
    (∀ available iri r, CutsClass o names available iri r)
      ∧ ∀ available supers r, CutsSupers o names available supers r := by
  refine resolveClass.mutual_induct o names (CutsClass o names) (CutsSupers o names) ?_ ?_ ?_ ?_ ?_
  · intro available iri r model h hcall
    rw [resolveClass, h]
    exact hcall.cut
  · intro available iri r h _ _ _ _ _ _ ih
    exact cutsClass_new o names h ih
  · intro available r iri hcall _
    rw [resolveSupers]
    exact hcall.cut
  · intro available r super rest hs model r₁ heq _ _ _ ih₁ ih₂
    refine cutsSupers_cons o names hs ih₁ ?_
    rw [heq]
    exact ih₂
  · intro available r super rest hs ih iri hcall hsub
    rw [resolveSupers, dif_neg hs]
    exact ih iri hcall fun x hx => hsub (List.mem_cons_of_mem _ hx)

/-- When the classes are resolved in order no other call is open. -/
theorem resolveAll_cut (hnd : (names.map (·.1)).Nodup) : ∀ (iris : List String) (r : Resolved),
    iris ⊆ names.map (·.1) → Built o names r.models → CutAtCircles o names r.models →
      CutAtCircles o names (resolveAll o names (names.map (·.1)) iris r).2.models
  | [], _, _, _, hcut => hcut
  | iri :: rest, r, hsub, hb, hcut => by
    have hcall : Call o names ((names.map (·.1)).erase iri) iri r :=
      { built := hb
        cut := hcut
        nodup := hnd.erase _
        subset := fun _ hx => List.mem_of_mem_erase hx
        named := hsub List.mem_cons_self
        open_self := hnd.not_mem_erase
        leads := by
          intro x hx hnot
          have hxi : x = iri := by
            by_contra hne
            exact hnot ((List.mem_erase_of_ne hne).2 hx)
          rw [hxi] }
    obtain ⟨hb', -⟩ := (resolveClass_built o names).1 _ iri r hb hcall.nodup hcall.open_self
    have hcut' := (resolveClass_cut o names).1 _ iri r hcall
    exact resolveAll_cut hnd rest _ (fun x hx => hsub (List.mem_cons_of_mem _ hx)) hb' hcut'

end Model

/-! ## The hierarchy of an ontology -/

namespace Ontology

/-- One step up the hierarchy, from an emitted class to an emitted class that its declaration puts
it below. -/
def SubClassOf (o : Ontology) (c s : String) : Prop :=
  ∃ d ∈ o.matched, d.iri = c ∧ s ∈ d.supers ∧ s ∈ o.matched.map DeclaredClass.iri

/-- No emitted class is below itself. -/
def Acyclic (o : Ontology) : Prop := ∀ c, ¬ Relation.TransGen o.SubClassOf c c

variable {o : Ontology} {c s : ClassModel}

theorem mem_matched_of_mem_resolve (hc : c ∈ o.resolve.1) :
    c.iri ∈ o.matched.map DeclaredClass.iri := by
  rw [← o.resolve_iris]
  exact List.mem_map_of_mem hc

theorem exists_model_of_mem_matched {iri : String} (h : iri ∈ o.matched.map DeclaredClass.iri) :
    ∃ c ∈ o.resolve.1, c.iri = iri := by
  rw [← o.resolve_iris] at h
  exact List.mem_map.1 h

theorem subClassOf_of_up {x y : String} (h : Model.Up o o.classNames x y) : o.SubClassOf x y := by
  obtain ⟨hx, hy, hsup⟩ := h
  rw [mem_classNames_keys] at hx hy
  obtain ⟨e, he, rfl⟩ := List.mem_map.1 hx
  rw [supersOf] at hsup
  rcases hf : o.classes.find? fun d => d.iri == e.iri with _ | d
  · rw [hf] at hsup
    simp at hsup
  · have hiri : d.iri = e.iri := by simpa using List.find?_some hf
    have hshape := (List.mem_filter.1 he).2
    rw [hf] at hsup
    refine ⟨d, List.mem_filter.2 ⟨List.mem_of_find?_eq_some hf, ?_⟩, hiri, hsup, hy⟩
    rw [hiri]
    exact hshape

theorem supersOf_eq (h : (o.classes.map DeclaredClass.iri).Nodup) {d : DeclaredClass}
    (hd : d ∈ o.classes) : o.supersOf d.iri = d.supers := by
  rw [supersOf, find_of_nodup_map h hd]
  rfl

theorem up_iff_subClassOf (h : (o.classes.map DeclaredClass.iri).Nodup) {x y : String} :
    Model.Up o o.classNames x y ↔ o.SubClassOf x y := by
  refine ⟨subClassOf_of_up, ?_⟩
  rintro ⟨d, hd, rfl, hsup, hy⟩
  refine ⟨o.mem_classNames_keys.2 (List.mem_map_of_mem hd), o.mem_classNames_keys.2 hy, ?_⟩
  rwa [supersOf_eq h (List.mem_filter.1 hd).1]

theorem resolved_built : Model.Built o o.classNames o.resolved.models :=
  (Model.resolveAll_built o o.classNames o.classNames_keys_nodup _ {} .start
    fun _ h => o.mem_classNames_keys.2 h).1

theorem mem_resolved_keys {iri : String} :
    iri ∈ o.resolved.models.map (·.1) ↔ iri ∈ o.matched.map DeclaredClass.iri := by
  obtain ⟨hb, -, hmap, hmem, hkeys⟩ := Model.resolveAll_built o o.classNames
    o.classNames_keys_nodup (o.matched.map DeclaredClass.iri) {} .start
    fun _ h => o.mem_classNames_keys.2 h
  constructor
  · intro h
    obtain ⟨e, he, rfl⟩ := List.mem_map.1 h
    rcases hkeys e he with he' | he'
    · simp at he'
    · exact o.mem_classNames_keys.1 he'
  · intro h
    rw [← hmap] at h
    obtain ⟨m, hm, rfl⟩ := List.mem_map.1 h
    exact List.mem_map.2 ⟨_, hmem m hm, rfl⟩

theorem resolved_keys_nodup : (o.resolved.models.map (·.1)).Nodup := by
  rw [List.Nodup, List.pairwise_map]
  exact o.resolved_built.keys

theorem mem_resolve_iff : c ∈ o.resolve.1 ↔ (c.iri, c) ∈ o.resolved.models := by
  obtain ⟨hb, -, hmap, hmem, -⟩ := Model.resolveAll_built o o.classNames
    o.classNames_keys_nodup (o.matched.map DeclaredClass.iri) {} .start
    fun _ h => o.mem_classNames_keys.2 h
  refine ⟨hmem c, fun hc => ?_⟩
  have hkey := o.mem_resolved_keys.1 (List.mem_map_of_mem hc)
  obtain ⟨d, hd, hiri⟩ := exists_model_of_mem_matched hkey
  rwa [← hb.eq_of_iri_eq (hmem d hd) hc hiri]

/-- A class is made from those super classes that were available, and an emitted class that was not
available leads up to it. -/
theorem exists_available (hc : c ∈ o.resolve.1) :
    ∃ available ⊆ o.matched.map DeclaredClass.iri,
      (superModels o.resolve.1 c).map ClassModel.iri = (o.supersOf c.iri).filter (· ∈ available)
        ∧ ∀ x ∈ o.matched.map DeclaredClass.iri, x ∉ available →
          Relation.ReflTransGen o.SubClassOf x c.iri := by
  have hcut := Model.resolveAll_cut o o.classNames o.classNames_keys_nodup _ {}
    (fun _ h => o.mem_classNames_keys.2 h) .start (fun _ h => absurd h List.not_mem_nil)
  obtain ⟨supers, available, heq, hmem, hiris, hsub, hleads⟩ := hcut _ (mem_resolve_iff.1 hc)
  have hnames : c.supers = supers.map ClassModel.className :=
    (congrArg ClassModel.supers heq).trans (Model.classModel_supers _ _ _ _)
  have hsupers := o.superModels_eq hnames fun s hs => mem_resolve_iff.2 (hmem s hs)
  rw [hsupers]
  refine ⟨available, fun x hx => o.mem_classNames_keys.1 (hsub hx), hiris, fun x hx hnot => ?_⟩
  exact Relation.ReflTransGen.mono (fun _ _ => subClassOf_of_up) _ _
    (hleads x (o.mem_classNames_keys.2 hx) hnot)

theorem mem_superModels_iff (hc : c ∈ o.resolve.1) :
    s ∈ superModels o.resolve.1 c ↔ s ∈ o.resolve.1 ∧ s.className ∈ c.supers := by
  rw [o.supers_eq hc]
  refine ⟨fun hs => ⟨o.mem_resolve_of_mem_superModels hc hs, List.mem_map_of_mem hs⟩, ?_⟩
  rintro ⟨hs, hname⟩
  obtain ⟨t, ht, heq⟩ := List.mem_map.1 hname
  rwa [← o.eq_of_className_eq (o.mem_resolve_of_mem_superModels hc ht) hs heq]

theorem up_of_mem_superModels (hc : c ∈ o.resolve.1) (hs : s ∈ superModels o.resolve.1 c) :
    Model.Up o o.classNames c.iri s.iri := by
  obtain ⟨available, -, hiris, -⟩ := exists_available hc
  have hmem : s.iri ∈ (o.supersOf c.iri).filter (· ∈ available) := by
    rw [← hiris]
    exact List.mem_map_of_mem hs
  have hs' := o.mem_resolve_of_mem_superModels hc hs
  exact ⟨o.mem_classNames_keys.2 (mem_matched_of_mem_resolve hc),
    o.mem_classNames_keys.2 (mem_matched_of_mem_resolve hs'), (List.mem_filter.1 hmem).1⟩

theorem leads_of_not_mem_superModels (hc : c ∈ o.resolve.1) (hs : s ∈ o.resolve.1)
    (hup : Model.Up o o.classNames c.iri s.iri) (hnot : s ∉ superModels o.resolve.1 c) :
    Relation.ReflTransGen o.SubClassOf s.iri c.iri := by
  obtain ⟨available, -, hiris, hleads⟩ := exists_available hc
  refine hleads s.iri (mem_matched_of_mem_resolve hs) fun hav => hnot ?_
  have hmem : s.iri ∈ (superModels o.resolve.1 c).map ClassModel.iri := by
    rw [hiris]
    exact List.mem_filter.2 ⟨hup.2.2, by simpa using hav⟩
  obtain ⟨t, ht, hiri⟩ := List.mem_map.1 hmem
  rwa [← o.eq_of_iri_eq (o.mem_resolve_of_mem_superModels hc ht) hs hiri]

/-- Without circles, a class records all emitted super classes in the order of its declaration. -/
theorem superModels_iris (h : o.Acyclic) (hc : c ∈ o.resolve.1) :
    (superModels o.resolve.1 c).map ClassModel.iri
      = (o.supersOf c.iri).filter (· ∈ o.matched.map DeclaredClass.iri) := by
  obtain ⟨available, hsub, hiris, hleads⟩ := exists_available hc
  rw [hiris]
  refine List.filter_congr fun x hx => decide_eq_decide.2 ⟨fun hav => hsub hav, fun hm => ?_⟩
  by_contra hav
  -- Otherwise the super class leads back to the class, which closes a circle.
  have hup : Model.Up o o.classNames c.iri x :=
    ⟨o.mem_classNames_keys.2 (mem_matched_of_mem_resolve hc), o.mem_classNames_keys.2 hm, hx⟩
  exact h c.iri (.head' (subClassOf_of_up hup) (hleads x hm hav))

theorem exists_super_of_subClassOf (hunique : (o.classes.map DeclaredClass.iri).Nodup)
    (h : o.Acyclic) (hc : c ∈ o.resolve.1) {x : String} (hx : o.SubClassOf c.iri x) :
    ∃ s ∈ superModels o.resolve.1 c, s.iri = x := by
  obtain ⟨-, hm, hsup⟩ := (up_iff_subClassOf hunique).2 hx
  have hmem : x ∈ (superModels o.resolve.1 c).map ClassModel.iri := by
    rw [superModels_iris h hc]
    exact List.mem_filter.2 ⟨hsup, decide_eq_true (o.mem_classNames_keys.1 hm)⟩
  exact List.mem_map.1 hmem

/-- A hierarchy in which every step up lowers some rank has no circles. -/
theorem acyclic_of_rank (rank : String → ℕ)
    (h : ∀ d ∈ o.matched, ∀ x ∈ d.supers, x ∈ o.matched.map DeclaredClass.iri →
      rank x < rank d.iri) : o.Acyclic := by
  have hlt : ∀ {x y : String}, Relation.TransGen o.SubClassOf x y → rank y < rank x := by
    intro x y hxy
    induction hxy with
    | single hxy =>
      obtain ⟨d, hd, rfl, hsup, hm⟩ := hxy
      exact h d hd _ hsup hm
    | tail _ hyz ih =>
      obtain ⟨d, hd, rfl, hsup, hm⟩ := hyz
      exact (h d hd _ hsup hm).trans ih
  exact fun c hc => lt_irrefl _ (hlt hc)

/-- A class below two others that share a super class. One path is declared at the top and again
below, one in both branches, and one twice at the bottom. -/
def diamond : Ontology where
  shapes :=
    [⟨"a", "http://ex.org/A", [{ path := "http://ex.org/p", name := "p" }]⟩,
     ⟨"b", "http://ex.org/B", [{ path := "http://ex.org/q", name := "q" },
      { path := "http://ex.org/p", name := "p" }]⟩,
     ⟨"c", "http://ex.org/C", [{ path := "http://ex.org/q", name := "q" }]⟩,
     ⟨"d", "http://ex.org/D", [{ path := "http://ex.org/r", name := "r" }]⟩,
     ⟨"e", "http://ex.org/D", [{ path := "http://ex.org/r", name := "r" },
      { path := "http://ex.org/q", name := "q" }]⟩]
  classes :=
    [⟨"http://ex.org/A", "A", []⟩, ⟨"http://ex.org/B", "B", ["http://ex.org/A"]⟩,
     ⟨"http://ex.org/C", "C", ["http://ex.org/A"]⟩,
     ⟨"http://ex.org/D", "D", ["http://ex.org/B", "http://ex.org/C"]⟩]

theorem diamond_acyclic : diamond.Acyclic :=
  acyclic_of_rank (fun iri => (diamond.classes.map DeclaredClass.iri).idxOf iri) (by decide)

/-- The recorded hierarchy has no circles. -/
theorem not_ancestor_self : ∀ c ∈ o.resolve.1, ¬ Ancestor o.resolve.1 c c := by
  refine o.resolve_induction fun c _ ih h => ?_
  -- A circle through a class goes through one of its super classes too.
  obtain ⟨s, hs, hback⟩ := Relation.TransGen.head'_iff.1 h
  exact ih s hs (.tail' hback hs)

/-- Resolution comes to an end, also with circles: the walk is no deeper than there are emitted
classes, leaves no mark and resolves each of them once. What is recorded has no circles and was
declared, and a declared super class is left out only if it leads back to the class. -/
theorem hierarchy_resolved (h : (o.classes.map DeclaredClass.iri).Nodup) :
    (∀ depth, o.matched.length < depth → o.walk depth = some (o.resolve.1, ⟨o.resolved, ∅⟩))
      ∧ (o.resolved.models.map (·.1)).Nodup
      ∧ (o.resolved.models.map (·.1)).Perm (o.matched.map DeclaredClass.iri)
      ∧ o.resolve.1.map ClassModel.iri = o.matched.map DeclaredClass.iri
      ∧ (∀ c ∈ o.resolve.1, ¬ Ancestor o.resolve.1 c c)
      ∧ (∀ c ∈ o.resolve.1, ∀ name ∈ c.supers,
          ∃ s ∈ o.resolve.1, s.className = name ∧ o.SubClassOf c.iri s.iri)
      ∧ ∀ c ∈ o.resolve.1, ∀ s ∈ o.resolve.1, o.SubClassOf c.iri s.iri →
          s.className ∉ c.supers → Relation.ReflTransGen o.SubClassOf s.iri c.iri := by
  refine ⟨fun depth hd => o.walk_eq_resolve hd, resolved_keys_nodup, ?_, o.resolve_iris,
    not_ancestor_self, ?_, ?_⟩
  · have hmatched : (o.matched.map DeclaredClass.iri).Nodup :=
      h.sublist (List.filter_sublist.map _)
    exact (List.perm_ext_iff_of_nodup resolved_keys_nodup hmatched).2 fun _ => mem_resolved_keys
  · intro c hc name hname
    obtain ⟨s, hs, rfl⟩ := exists_super_of_mem_supers hc hname
    exact ⟨s, o.mem_resolve_of_mem_superModels hc hs, rfl,
      subClassOf_of_up (up_of_mem_superModels hc hs)⟩
  · intro c hc s hs hsub hnot
    have hleft : s ∉ superModels o.resolve.1 c := fun hm => hnot ((mem_superModels_iff hc).1 hm).2
    exact leads_of_not_mem_superModels hc hs ((up_iff_subClassOf h).2 hsub) hleft

/-- A circle of three classes with a shorter circle in it. -/
def circle : Ontology where
  shapes :=
    [⟨"a", "http://ex.org/A", []⟩, ⟨"b", "http://ex.org/B", []⟩, ⟨"c", "http://ex.org/C", []⟩]
  classes :=
    [⟨"http://ex.org/A", "A", ["http://ex.org/B"]⟩, ⟨"http://ex.org/B", "B", ["http://ex.org/C"]⟩,
     ⟨"http://ex.org/C", "C", ["http://ex.org/A", "http://ex.org/B"]⟩]

/-- Both circles are cut at the class that is reached last, and the super class that it loses leads
back to it. -/
theorem circle_cut : (circle.classes.map DeclaredClass.iri).Nodup
    ∧ circle.walk 4 = some (circle.resolve.1, ⟨circle.resolved, ∅⟩)
    ∧ circle.resolve.1.map ClassModel.supers = [["B"], ["C"], []]
    ∧ ∃ c ∈ circle.resolve.1, ∃ s ∈ circle.resolve.1, circle.SubClassOf c.iri s.iri
      ∧ s.className ∉ c.supers ∧ Relation.ReflTransGen circle.SubClassOf s.iri c.iri := by
  have hnodup : (circle.classes.map DeclaredClass.iri).Nodup := by decide
  have hsupers : circle.evaluate.map ClassModel.supers = [["B"], ["C"], []] := by decide +kernel
  have hfound : ∃ c ∈ circle.evaluate, ∃ s ∈ circle.evaluate, c.iri = "http://ex.org/C"
      ∧ s.iri = "http://ex.org/A" ∧ s.className ∉ c.supers := by decide +kernel
  rw [← resolve_eq_evaluate] at hsupers hfound
  obtain ⟨c, hc, s, hs, hci, hsi, hnot⟩ := hfound
  obtain ⟨hwalk, -, -, -, -, -, hleft⟩ := hierarchy_resolved hnodup
  have hsub : circle.SubClassOf c.iri s.iri := by
    rw [hci, hsi, SubClassOf]
    decide
  exact ⟨hnodup, hwalk 4 (by decide), hsupers, c, hc, s, hs, hsub, hnot, hleft c hc s hs hsub hnot⟩

end Ontology

end ShapeForge
