import ShapeForge.Proofs.Hierarchy

/-!
# The order of the classes

Where naming changes no name, the names of a class follow from its declaration alone
(`Ontology.classNames_eq`), so they do not depend on the classes that were named before. A class
model asks for names only by IRI (`Model.classModel_congr`).

Without circles, every class is made from all of its emitted super classes, whichever class was
resolved first. So the same declarations in another order give the same class models
(`Ontology.Reordered.mem_resolve`), by induction along the super classes.
-/

namespace ShapeForge

open Naming (Allocator Condition)

theorem Assoc.get?_eq_of_perm {α : Type} {entries others : List (String × α)}
    (hkeys : (entries.map (·.1)).Nodup) (h : entries.Perm others) (key : String) :
    Assoc.get? key entries = Assoc.get? key others := by
  have hkeys' : (others.map (·.1)).Nodup := (h.map _).nodup_iff.1 hkeys
  rw [List.Nodup, List.pairwise_map] at hkeys'
  rcases hv : Assoc.get? key entries with _ | value
  · rw [Assoc.get?_eq_none_iff] at hv
    exact (Assoc.get?_eq_none_iff.2 fun hm => hv ((h.map _).mem_iff.2 hm)).symm
  · exact (Assoc.get?_of_mem hkeys' (h.mem_iff.1 (Assoc.mem_of_get? hv))).symm

theorem Naming.Allocator.choose_of_no_notice {a : Allocator} {name origin : String}
    {condition : Condition} (h : (a.claim name origin condition).2.2 = []) :
    a.choose name condition = name := by
  simp only [Allocator.claim] at h
  split_ifs at h with hadmits
  exact a.choose_of_admits hadmits

/-- The names of a class that keeps the name of its declaration. -/
def DeclaredClass.plainNames (d : DeclaredClass) : ClassNames :=
  ⟨d.name, Naming.moduleNameFor d.name, Naming.propertyNameFor d.name⟩

namespace Model

namespace NamingState

theorem next_eq_of_no_notice {s : NamingState} {d : DeclaredClass} (h : (s.add d).notices = []) :
    s.notices = [] ∧ s.next d = d.plainNames := by
  rw [add_notices, List.append_eq_nil_iff, List.append_eq_nil_iff] at h
  obtain ⟨⟨hnotices, hclass⟩, hbuilder⟩ := h
  have hname : (s.next d).className = d.name := Allocator.choose_of_no_notice hclass
  have hbuilderName : (s.next d).builderName = Naming.propertyNameFor (s.next d).className :=
    Allocator.choose_of_no_notice hbuilder
  refine ⟨hnotices, ?_⟩
  rw [DeclaredClass.plainNames, ← hname, ← hbuilderName, ← s.next_moduleName d]

/-- Where no name is changed, each class gets the plain names of its declaration. -/
theorem foldl_add_names : ∀ (ds : List DeclaredClass) (s : NamingState),
    (ds.foldl NamingState.add s).notices = [] →
      s.notices = []
        ∧ (ds.foldl NamingState.add s).names
          = ds.foldl (fun names d => Assoc.put d.iri d.plainNames names) s.names
  | [], _, h => ⟨h, rfl⟩
  | d :: ds, s, h => by
    obtain ⟨hnotices, hnames⟩ := foldl_add_names ds (s.add d) h
    obtain ⟨hstart, hnext⟩ := next_eq_of_no_notice hnotices
    rw [add_names, hnext] at hnames
    exact ⟨hstart, hnames⟩

end NamingState

/-! ## What a class model depends on -/

variable {o o' : Ontology} {names names' : List (String × ClassNames)}

theorem targetType_congr (hnames : ∀ iri, Assoc.get? iri names = Assoc.get? iri names')
    (context : Context) (p : PropertyShape) :
    p.targetType context names = p.targetType context names' := by
  simp only [PropertyShape.targetType, hnames]

theorem add_congr (hcontext : o.context = o'.context)
    (hnames : ∀ iri, Assoc.get? iri names = Assoc.get? iri names') :
    Members.add o names = Members.add o' names' := by
  funext m p
  simp only [Members.add, hcontext, targetType_congr hnames]

theorem classModel_congr (hshapes : o.shapes = o'.shapes) (hcontext : o.context = o'.context)
    (hnames : ∀ iri, Assoc.get? iri names = Assoc.get? iri names') (iri : String)
    (supers : List ClassModel) :
    classModel o names iri supers = classModel o' names' iri supers := by
  simp only [classModel, Ontology.shapesFor, hshapes, hnames, add_congr hcontext hnames]

end Model

namespace Ontology

variable {o o' : Ontology}

/-- Naming has nothing to notice: every class gets the name of its declaration. -/
def KeepsNames (o : Ontology) : Prop := (Model.nameClasses o.matched).notices = []

theorem classNames_eq (hunique : (o.classes.map DeclaredClass.iri).Nodup) (h : o.KeepsNames) :
    o.classNames = o.matched.map fun d => (d.iri, d.plainNames) := by
  have hmatched : (o.matched.map DeclaredClass.iri).Nodup :=
    hunique.sublist (List.filter_sublist.map _)
  obtain ⟨-, hnames⟩ := Model.NamingState.foldl_add_names o.matched {} h
  exact hnames.trans
    (Assoc.foldl_put_of_nodup DeclaredClass.iri DeclaredClass.plainNames o.matched [] hmatched
      (by simp))

theorem eq_of_map_iri_eq : ∀ {cs ds : List ClassModel}, (∀ c ∈ cs, c ∈ o.resolve.1) →
    (∀ d ∈ ds, d ∈ o.resolve.1) → cs.map ClassModel.iri = ds.map ClassModel.iri → cs = ds
  | [], [], _, _, _ => rfl
  | [], _ :: _, _, _, h => by simp at h
  | _ :: _, [], _, _, h => by simp at h
  | c :: cs, d :: ds, hcs, hds, h => by
    rw [List.map_cons, List.map_cons, List.cons.injEq] at h
    rw [o.eq_of_iri_eq (hcs c List.mem_cons_self) (hds d List.mem_cons_self) h.1,
      eq_of_map_iri_eq (fun x hx => hcs x (List.mem_cons_of_mem _ hx))
        (fun x hx => hds x (List.mem_cons_of_mem _ hx)) h.2]

/-- The same declarations in another order. -/
structure Reordered (o o' : Ontology) : Prop where
  shapes : o.shapes = o'.shapes
  context : o.context = o'.context
  classes : o.classes.Perm o'.classes
  unique : (o.classes.map DeclaredClass.iri).Nodup

namespace Reordered

theorem symm (h : Reordered o o') : Reordered o' o :=
  ⟨h.shapes.symm, h.context.symm, h.classes.symm, (h.classes.map _).nodup_iff.1 h.unique⟩

theorem matched (h : Reordered o o') : o.matched.Perm o'.matched := by
  have hshape : o.hasShape = o'.hasShape := by
    funext iri
    rw [hasShape, hasShape, h.shapes]
  rw [Ontology.matched, Ontology.matched, hshape]
  exact h.classes.filter _

theorem supersOf (h : Reordered o o') (iri : String) : o.supersOf iri = o'.supersOf iri := by
  by_cases hm : iri ∈ o.classes.map DeclaredClass.iri
  · obtain ⟨d, hd, rfl⟩ := List.mem_map.1 hm
    rw [supersOf_eq h.unique hd, supersOf_eq h.symm.unique (h.classes.mem_iff.1 hd)]
  · have hnone : ∀ {l : List DeclaredClass}, iri ∉ l.map DeclaredClass.iri →
        l.find? (fun d => d.iri == iri) = none := by
      intro l hl
      refine List.find?_eq_none.2 fun d hd heq => hl (List.mem_map.2 ⟨d, hd, ?_⟩)
      simpa using heq
    rw [Ontology.supersOf, Ontology.supersOf, hnone hm,
      hnone fun hm' => hm ((h.classes.map _).mem_iff.2 hm')]

theorem subClassOf (h : Reordered o o') {x y : String} (hxy : o'.SubClassOf x y) :
    o.SubClassOf x y := by
  obtain ⟨d, hd, hiri, hsup, hm⟩ := hxy
  exact ⟨d, h.matched.mem_iff.2 hd, hiri, hsup, (h.matched.map _).mem_iff.2 hm⟩

theorem acyclic (h : Reordered o o') (hac : o.Acyclic) : o'.Acyclic :=
  fun c hc => hac c (Relation.TransGen.mono (fun _ _ => h.subClassOf) _ _ hc)

theorem get?_classNames (h : Reordered o o') (hnames : o.KeepsNames) (hnames' : o'.KeepsNames)
    (iri : String) : Assoc.get? iri o.classNames = Assoc.get? iri o'.classNames := by
  refine Assoc.get?_eq_of_perm o.classNames_keys_nodup ?_ iri
  rw [classNames_eq h.unique hnames, classNames_eq h.symm.unique hnames']
  exact h.matched.map _

/-- Every class model comes out of both orders. -/
theorem mem_resolve (h : Reordered o o') (hac : o.Acyclic) (hnames : o.KeepsNames)
    (hnames' : o'.KeepsNames) : ∀ c ∈ o.resolve.1, c ∈ o'.resolve.1 := by
  refine o.resolve_induction fun c hc ih => ?_
  have hkey : c.iri ∈ o'.matched.map DeclaredClass.iri :=
    (h.matched.map _).mem_iff.1 (mem_matched_of_mem_resolve hc)
  obtain ⟨c', hc', hiri⟩ := exists_model_of_mem_matched hkey
  -- Both classes have super classes of the same IRIs, which by induction have the same models.
  have hsupers : superModels o.resolve.1 c = superModels o'.resolve.1 c' := by
    have hiris : (superModels o.resolve.1 c).map ClassModel.iri
        = (superModels o'.resolve.1 c').map ClassModel.iri := by
      rw [superModels_iris hac hc, superModels_iris (h.acyclic hac) hc', hiri, h.supersOf]
      exact List.filter_congr fun x _ => decide_eq_decide.2 (h.matched.map _).mem_iff
    exact eq_of_map_iri_eq ih (fun s hs => o'.mem_resolve_of_mem_superModels hc' hs) hiris
  have hmodel := (o.eq_classModel_of_mem_resolve hc).1
  rw [Model.classModel_congr h.shapes h.context (h.get?_classNames hnames hnames'), hsupers,
    ← hiri, ← (o'.eq_classModel_of_mem_resolve hc').1] at hmodel
  rwa [hmodel]

end Reordered

/-- Without circles, and where naming changes no name, the order of the declarations does not
matter: each class has the same model, and only the order of the models changes. -/
theorem resolve_perm (hshapes : o.shapes = o'.shapes) (hcontext : o.context = o'.context)
    (hclasses : o.classes.Perm o'.classes) (hunique : (o.classes.map DeclaredClass.iri).Nodup)
    (hac : o.Acyclic) (hnames : o.KeepsNames) (hnames' : o'.KeepsNames) :
    (∀ c ∈ o.resolve.1, ∀ c' ∈ o'.resolve.1, c.iri = c'.iri → c = c')
      ∧ o.resolve.1.Perm o'.resolve.1 := by
  have h : Reordered o o' := ⟨hshapes, hcontext, hclasses, hunique⟩
  have hmem := h.mem_resolve hac hnames hnames'
  have hmem' := h.symm.mem_resolve (h.acyclic hac) hnames' hnames
  refine ⟨fun c hc c' hc' => o'.eq_of_iri_eq (hmem c hc) hc', ?_⟩
  exact (List.perm_ext_iff_of_nodup (resolve_iris_nodup hunique).of_map
    (resolve_iris_nodup h.symm.unique).of_map).2 fun c => ⟨hmem c, hmem' c⟩

/-- The diamond with the class at the bottom first. -/
def diamondFromBelow : Ontology := { diamond with classes := diamond.classes.reverse }

/-- From below, the super classes are resolved while the class at the bottom is waiting. -/
theorem diamond_perm_fromBelow : diamond.classes.Perm diamondFromBelow.classes
    ∧ (diamond.classes.map DeclaredClass.iri).Nodup ∧ diamond.Acyclic ∧ diamond.KeepsNames
    ∧ diamondFromBelow.KeepsNames
    ∧ diamond.resolve.1.map ClassModel.className = ["A", "B", "C", "D"]
    ∧ diamondFromBelow.resolve.1.map ClassModel.className = ["D", "C", "B", "A"]
    ∧ diamond.resolve.1.Perm diamondFromBelow.resolve.1 := by
  have hshapes : diamond.shapes = diamondFromBelow.shapes := rfl
  have hcontext : diamond.context = diamondFromBelow.context := rfl
  have hperm : diamond.classes.Perm diamondFromBelow.classes := (List.reverse_perm _).symm
  have hnodup : (diamond.classes.map DeclaredClass.iri).Nodup := by decide
  have hnames : diamond.KeepsNames := by
    unfold KeepsNames
    decide +kernel
  have hnames' : diamondFromBelow.KeepsNames := by
    unfold KeepsNames
    decide +kernel
  have horder : diamond.evaluate.map ClassModel.className = ["A", "B", "C", "D"] := by
    decide +kernel
  have horder' : diamondFromBelow.evaluate.map ClassModel.className = ["D", "C", "B", "A"] := by
    decide +kernel
  rw [← resolve_eq_evaluate] at horder horder'
  have hresult := resolve_perm hshapes hcontext hperm hnodup diamond_acyclic hnames hnames'
  exact ⟨hperm, hnodup, diamond_acyclic, hnames, hnames', horder, horder', hresult.2⟩

end Ontology

end ShapeForge
