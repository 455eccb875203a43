import ShapeForge.Proofs.Members
import ShapeForge.Proofs.NamePools

/-!
# Accessors of the classes above

A class has every predicate of the classes above it, but under the name that the first of its super
classes gives it (`exists_provider`). So it implements the accessors of all classes above exactly
if these agree on the name of every predicate (`implements_of_agree`), which they do along single
super classes.

The lookup order of an interface holds only itself, the interfaces above it and the root
(`Interface.reaches_of_mem_linearize`). So a class that implements all of them can be wrapped
(`missing_eq_nil`).
-/

namespace ShapeForge

/-- The classes above a class: its super classes, theirs, and so on. -/
def Ancestor (models : List ClassModel) : ClassModel → ClassModel → Prop :=
  Relation.TransGen fun c s => s ∈ superModels models c

/-- A class has every property of another, under the same name. -/
def ClassModel.Implements (c s : ClassModel) : Prop :=
  ∀ p ∈ s.properties, ∃ q ∈ c.properties, q.name = p.name ∧ q.iri = p.iri

theorem ClassModel.Implements.trans {c s t : ClassModel} (hs : c.Implements s)
    (ht : s.Implements t) : c.Implements t := by
  intro p hp
  obtain ⟨q, hq, hname, hiri⟩ := ht p hp
  obtain ⟨r, hr, hname', hiri'⟩ := hs q hq
  exact ⟨r, hr, hname'.trans hname, hiri'.trans hiri⟩

namespace Ontology

variable {o : Ontology} {c s : ClassModel}

theorem mem_resolve_of_ancestor (hc : c ∈ o.resolve.1) (h : Ancestor o.resolve.1 c s) :
    s ∈ o.resolve.1 := by
  induction h with
  | single h => exact o.mem_resolve_of_mem_superModels hc h
  | tail _ h ih => exact o.mem_resolve_of_mem_superModels ih h

/-- A predicate of a super class is inherited, under the name that some super class gives it. -/
theorem exists_provider (hc : c ∈ o.resolve.1) (hs : s ∈ superModels o.resolve.1 c)
    {p : PropertyModel} (hp : p ∈ s.properties) :
    ∃ t ∈ superModels o.resolve.1 c, ∃ r ∈ t.properties, r.iri = p.iri
      ∧ ∃ q ∈ c.properties, q.name = r.name ∧ q.iri = r.iri := by
  obtain ⟨fresh, hext⟩ := extends_of_mem_resolve hc
  have hmem : p ∈ (superModels o.resolve.1 c).flatMap ClassModel.properties :=
    List.mem_flatMap.2 ⟨s, hs, hp⟩
  rcases hf : ((superModels o.resolve.1 c).flatMap ClassModel.properties).find?
      (·.iri == p.iri) with _ | r
  · exact absurd (List.find?_eq_none.1 hf p hmem) (by simp)
  · obtain ⟨hr', hr⟩ := mem_of_find_iri hf
    obtain ⟨t, ht, hrt⟩ := List.mem_flatMap.1 hr'
    have hfound := Model.find_inherited (superModels o.resolve.1 c) p.iri
    rw [hf, Option.map_some] at hfound
    obtain ⟨q, hq, hname, hiri⟩ := hext.exists_mem (mem_of_find_iri hfound).1
    exact ⟨t, ht, r, hrt, hr, q, hq, hname, hiri⟩

theorem implements_super (hc : c ∈ o.resolve.1) (hs : s ∈ superModels o.resolve.1 c)
    (hagree : ∀ t ∈ superModels o.resolve.1 c, ∀ p ∈ s.properties, ∀ q ∈ t.properties,
      p.iri = q.iri → p.name = q.name) : c.Implements s := by
  intro p hp
  obtain ⟨t, ht, r, hr, hri, q, hq, hname, hiri⟩ := exists_provider hc hs hp
  exact ⟨q, hq, hname.trans (hagree t ht p hp r hr hri.symm).symm, hiri.trans hri⟩

/-- It is enough that each class on the way up implements its super classes. -/
theorem implements_of_supers
    (h : ∀ d, d = c ∨ Ancestor o.resolve.1 c d → ∀ t ∈ superModels o.resolve.1 d, d.Implements t)
    (hs : Ancestor o.resolve.1 c s) : c.Implements s := by
  induction hs with
  | single hs => exact h c (.inl rfl) _ hs
  | tail hd hs ih => exact ih.trans (h _ (.inr hd) _ hs)

theorem mem_resolve_of_eq_or_ancestor (hc : c ∈ o.resolve.1)
    (h : s = c ∨ Ancestor o.resolve.1 c s) : s ∈ o.resolve.1 := by
  rcases h with rfl | h
  · exact hc
  · exact mem_resolve_of_ancestor hc h

theorem implements_of_agree (hc : c ∈ o.resolve.1)
    (hagree : ∀ s t, Ancestor o.resolve.1 c s → Ancestor o.resolve.1 c t →
      ∀ p ∈ s.properties, ∀ q ∈ t.properties, p.iri = q.iri → p.name = q.name)
    (hs : Ancestor o.resolve.1 c s) : c.Implements s := by
  refine implements_of_supers (fun d hd t ht => ?_) hs
  have habove : ∀ u ∈ superModels o.resolve.1 d, Ancestor o.resolve.1 c u := by
    intro u hu
    rcases hd with rfl | hd
    · exact .single hu
    · exact hd.tail hu
  exact implements_super (mem_resolve_of_eq_or_ancestor hc hd) ht fun u hu =>
    hagree t u (habove t ht) (habove u hu)

theorem agree_of_implements (hc : c ∈ o.resolve.1)
    (h : ∀ s, Ancestor o.resolve.1 c s → c.Implements s) {t : ClassModel}
    (hs : Ancestor o.resolve.1 c s) (ht : Ancestor o.resolve.1 c t) {p q : PropertyModel}
    (hp : p ∈ s.properties) (hq : q ∈ t.properties) (hpq : p.iri = q.iri) : p.name = q.name := by
  obtain ⟨p', hp', hpn, hpi⟩ := h s hs p hp
  obtain ⟨q', hq', hqn, hqi⟩ := h t ht q hq
  have hsame : p' = q' := List.inj_on_of_nodup_map (property_iris_nodup hc) hp' hq'
    (hpi.trans (hpq.trans hqi.symm))
  rw [← hpn, ← hqn, hsame]

theorem SingleInheritance.implements (h : o.SingleInheritance) (hc : c ∈ o.resolve.1)
    (hs : Ancestor o.resolve.1 c s) : c.Implements s := by
  refine implements_of_supers (fun d hd t ht => ?_) hs
  have hd' := mem_resolve_of_eq_or_ancestor hc hd
  have ht' := o.mem_resolve_of_mem_superModels hd' ht
  refine implements_super hd' ht fun u hu p hp q hq hpq => ?_
  rw [h.eq_of_mem_superModels hd' hu ht] at hq
  rw [List.inj_on_of_nodup_map (property_iris_nodup ht') hp hq hpq]

end Ontology

/-! ## Lookup orders -/

namespace Interface

/-- One step up from an interface, to a base or to the root. -/
def Base (types : List Interface) (name base : String) : Prop :=
  ∃ t, types.find? (fun t => t.name == name) = some t
    ∧ base ∈ if t.bases.isEmpty then [rootInterface] else t.bases

theorem exists_mem_of_nextHead {lists : List (List String)} {name : String}
    (h : nextHead? lists = some name) : ∃ l ∈ lists, name ∈ l := by
  obtain ⟨l, hl, hhead⟩ := List.mem_filterMap.1 (List.mem_of_find?_eq_some h)
  exact ⟨l, hl, List.mem_of_mem_head? hhead⟩

theorem mem_of_mem_merge : ∀ {fuel : Nat} {lists : List (List String)} {order : List String},
    merge fuel lists = some order → ∀ n ∈ order, ∃ l ∈ lists, n ∈ l
  | 0, _, _, h, _, _ => by simp [merge] at h
  | fuel + 1, lists, order, h, n, hn => by
    rw [merge] at h
    split_ifs at h with hempty
    · rw [← Option.some.inj h] at hn
      simp at hn
    · obtain ⟨name, hname, h⟩ := Option.bind_eq_some_iff.1 h
      obtain ⟨rest, hrest, h⟩ := Option.bind_eq_some_iff.1 h
      rw [← Option.some.inj h, List.mem_cons] at hn
      rcases hn with rfl | hn
      · obtain ⟨l, hl, hm⟩ := exists_mem_of_nextHead hname
        exact ⟨l, (List.mem_filter.1 hl).1, hm⟩
      · obtain ⟨l, hl, hm⟩ := mem_of_mem_merge hrest n hn
        obtain ⟨l', hl', rfl⟩ := List.mem_map.1 hl
        refine ⟨l', (List.mem_filter.1 hl').1, ?_⟩
        split_ifs at hm
        · exact List.mem_of_mem_tail hm
        · exact hm

theorem exists_of_mem_mapM {f : String → Option (List String)} :
    ∀ {bases : List String} {orders : List (List String)}, bases.mapM f = some orders →
      ∀ l ∈ orders, ∃ base ∈ bases, f base = some l
  | [], orders, h, l, hl => by
    rw [List.mapM_nil] at h
    rw [← Option.some.inj h] at hl
    simp at hl
  | base :: bases, orders, h, l, hl => by
    rw [List.mapM_cons] at h
    obtain ⟨order, horder, h⟩ := Option.bind_eq_some_iff.1 h
    obtain ⟨rest, hrest, h⟩ := Option.bind_eq_some_iff.1 h
    rw [← Option.some.inj h, List.mem_cons] at hl
    rcases hl with rfl | hl
    · exact ⟨base, List.mem_cons_self, horder⟩
    · obtain ⟨b, hb, heq⟩ := exists_of_mem_mapM hrest l hl
      exact ⟨b, List.mem_cons_of_mem _ hb, heq⟩

/-- A lookup order holds only what can be reached from the interface. -/
theorem reaches_of_mem_linearize (types : List Interface) :
    ∀ {fuel : Nat} {name : String} {order : List String}, linearize types fuel name = some order →
      ∀ n ∈ order, Relation.ReflTransGen (Base types) name n
  | 0, _, _, h, _, _ => by simp [linearize] at h
  | fuel + 1, name, order, h, n, hn => by
    rw [linearize] at h
    split at h
    · rw [← Option.some.inj h, List.mem_singleton] at hn
      rw [hn]
    · rename_i t ht
      obtain ⟨orders, horders, h⟩ := Option.bind_eq_some_iff.1 h
      obtain ⟨rest, hrest, h⟩ := Option.bind_eq_some_iff.1 h
      rw [← Option.some.inj h, List.mem_cons] at hn
      rcases hn with rfl | hn
      · exact .refl
      · -- A name of the merged lists is a base or stands in the lookup order of one.
        obtain ⟨l, hl, hm⟩ := mem_of_mem_merge hrest n hn
        rcases List.mem_append.1 hl with hl | hl
        · obtain ⟨base, hb, hbase⟩ := exists_of_mem_mapM horders l hl
          exact .head ⟨t, ht, hb⟩ (reaches_of_mem_linearize types hbase n hm)
        · rw [List.mem_singleton.1 hl] at hm
          exact .single ⟨t, ht, hm⟩

end Interface

/-! ## Packages -/

namespace Package

theorem find_interfaces (p : Package) (name : String) :
    (p.interfaces.find? fun t => t.name == name)
      = (p.classes.find? fun c => c.className == name).map ClassModel.interface := by
  rw [interfaces, List.find?_map]
  rfl

end Package

theorem ClassModel.mem_interface_predicates {c : ClassModel} {name : String}
    (h : name ∈ c.interface.predicates.map (·.1)) : ∃ p ∈ c.properties, p.name = name := by
  rw [interface, (Assoc.foldl_put_keys PropertyModel.name PropertyModel.iri c.declared []
    List.nodup_nil).2] at h
  obtain ⟨p, hp, hname⟩ : ∃ p ∈ c.declared, p.name = name := by simpa using h
  refine ⟨p, ?_, hname⟩
  unfold declared at hp
  split_ifs at hp
  · exact hp
  · exact (List.mem_filter.1 hp).1

namespace Ontology

variable {o : Ontology} {c : ClassModel} (options : Options)

theorem className_ne_root (hc : c ∈ o.resolve.1) : c.className ≠ rootInterface := by
  intro h
  refine (proper_of_mem_resolve hc).classes (a := c.className) ?_ (by rw [h]; decide)
  simp [ClassNames.classPool, ClassModel.names]

theorem exists_super_of_mem_supers (hc : c ∈ o.resolve.1) {n : String} (hn : n ∈ c.supers) :
    ∃ s ∈ superModels o.resolve.1 c, s.className = n := by
  rw [o.supers_eq hc] at hn
  exact List.mem_map.1 hn

/-- What can be reached from the interface of a class is the root or a class above it. -/
theorem reaches_interface (hc : c ∈ o.resolve.1) {n : String}
    (h : Relation.ReflTransGen
      (Interface.Base (⟨options, o.resolve.1⟩ : Package).interfaces) c.className n) :
    n = rootInterface
      ∨ ∃ d, (d = c ∨ Ancestor o.resolve.1 c d) ∧ d.className = n := by
  induction h with
  | refl => exact .inr ⟨c, .inl rfl, rfl⟩
  | tail _ hbase ih =>
    obtain ⟨t, ht, hn⟩ := hbase
    rw [Package.find_interfaces] at ht
    obtain ⟨d', hd', rfl⟩ := Option.map_eq_some_iff.1 ht
    rcases ih with rfl | ⟨d, hd, rfl⟩
    · have hroot : d'.className = rootInterface := by simpa using List.find?_some hd'
      exact absurd hroot (className_ne_root (List.mem_of_find?_eq_some hd'))
    · have hdr := mem_resolve_of_eq_or_ancestor hc hd
      rw [o.find_className hdr] at hd'
      obtain rfl : d = d' := Option.some.inj hd'
      split_ifs at hn
      · exact .inl (List.mem_singleton.1 hn)
      · obtain ⟨s, hs, rfl⟩ := exists_super_of_mem_supers hdr hn
        refine .inr ⟨s, .inr ?_, rfl⟩
        rcases hd with rfl | hd
        · exact .single hs
        · exact hd.tail hs

theorem reaches_of_mem_lookupOrder {n : String}
    (h : n ∈ (⟨options, o.resolve.1⟩ : Package).lookupOrder c) :
    Relation.ReflTransGen
      (Interface.Base (⟨options, o.resolve.1⟩ : Package).interfaces) c.className n := by
  rw [Package.lookupOrder, Interface.lookupOrder] at h
  rcases hl : Interface.linearize (⟨options, o.resolve.1⟩ : Package).interfaces
      ((⟨options, o.resolve.1⟩ : Package).interfaces.length + 2) c.className with _ | order
  · rw [hl] at h
    simp at h
  · rw [hl, Option.getD_some] at h
    exact Interface.reaches_of_mem_linearize _ hl n h

/-- What the interface of a class asks for is a property of the class or of one above it. -/
theorem exists_property_of_required (hc : c ∈ o.resolve.1) {name : String}
    (h : name ∈ (⟨options, o.resolve.1⟩ : Package).required c) :
    ∃ d, (d = c ∨ Ancestor o.resolve.1 c d) ∧ ∃ p ∈ d.properties, p.name = name := by
  obtain ⟨n, hn, hname⟩ := List.mem_flatMap.1 h
  rw [Package.find_interfaces] at hname
  rcases hf : o.resolve.1.find? fun d => d.className == n with _ | d'
  · rw [hf] at hname
    simp at hname
  rw [hf] at hname
  have hd' : d'.className = n := by simpa using List.find?_some hf
  have hdr' := List.mem_of_find?_eq_some hf
  rcases reaches_interface options hc (reaches_of_mem_lookupOrder options hn) with
    rfl | ⟨d, hd, rfl⟩
  · exact absurd hd' (className_ne_root hdr')
  · obtain rfl := o.eq_of_className_eq hdr' (mem_resolve_of_eq_or_ancestor hc hd) hd'
    exact ⟨d', hd, ClassModel.mem_interface_predicates hname⟩

theorem missing_eq_nil (hc : c ∈ o.resolve.1)
    (h : ∀ s, Ancestor o.resolve.1 c s → c.Implements s) :
    (⟨options, o.resolve.1⟩ : Package).missing c = [] := by
  rw [Package.missing, List.filter_eq_nil_iff]
  intro name hname
  obtain ⟨p, hp, rfl⟩ : ∃ p ∈ c.properties, p.name = name := by
    obtain ⟨d, hd, p, hp, rfl⟩ := exists_property_of_required options hc hname
    rcases hd with rfl | hd
    · exact ⟨p, hp, rfl⟩
    · obtain ⟨q, hq, hqn, -⟩ := h d hd p hp
      exact ⟨q, hq, hqn⟩
  have hfound : (c.property? p.name).isSome := by
    rw [ClassModel.property?, List.find?_isSome]
    exact ⟨p, List.mem_reverse.2 hp, by simp⟩
  rw [Option.isNone_iff_eq_none]
  exact Option.isSome_iff_ne_none.1 hfound

/-- A class implements the accessors of all classes above it exactly if these agree on the name of
every predicate, so always if no class has two super classes. Then its wrapper lacks none. -/
theorem accessors_implemented_iff (hc : c ∈ o.resolve.1) :
    ((∀ s, Ancestor o.resolve.1 c s → c.Implements s) ↔
        ∀ s t, Ancestor o.resolve.1 c s → Ancestor o.resolve.1 c t →
          ∀ p ∈ s.properties, ∀ q ∈ t.properties, p.iri = q.iri → p.name = q.name)
      ∧ (o.SingleInheritance → ∀ s, Ancestor o.resolve.1 c s → c.Implements s)
      ∧ ((∀ s, Ancestor o.resolve.1 c s → c.Implements s) →
        ∀ options, (⟨options, o.resolve.1⟩ : Package).missing c = []) := by
  refine ⟨⟨fun h s t hs ht p hp q hq => agree_of_implements hc h hs ht hp hq,
    fun h s hs => implements_of_agree hc h hs⟩, fun h s hs => h.implements hc hs, ?_⟩
  intro h options
  exact missing_eq_nil options hc h

/-- A predicate that one class calls `name` and another `name_2`, and a class below both. -/
def renamedName : Ontology where
  shapes :=
    [⟨"a", "http://ex.org/A", [{ path := "http://ex.org/name", name := "name" }]⟩,
     ⟨"b", "http://ex.org/B", [{ path := "http://other.org/name", name := "name" },
      { path := "http://ex.org/name", name := "name" }]⟩,
     ⟨"c", "http://ex.org/C", []⟩]
  classes :=
    [⟨"http://ex.org/A", "A", []⟩, ⟨"http://ex.org/B", "B", []⟩,
     ⟨"http://ex.org/C", "C", ["http://ex.org/A", "http://ex.org/B"]⟩]

/-- The class below does not implement the accessor that was renamed. -/
theorem renamedName_lacks_accessor : ∃ c ∈ renamedName.resolve.1,
    (⟨⟨"d", "p", true, false, true⟩, renamedName.resolve.1⟩ : Package).missing c = ["name_2"]
      ∧ ¬ (∀ s, Ancestor renamedName.resolve.1 c s → c.Implements s)
      ∧ ¬ renamedName.SingleInheritance := by
  have hfound : ∃ c ∈ renamedName.evaluate,
      (⟨⟨"d", "p", true, false, true⟩, renamedName.evaluate⟩ : Package).missing c
        = ["name_2"] := by
    decide +kernel
  rw [← resolve_eq_evaluate] at hfound
  obtain ⟨c, hc, hmissing⟩ := hfound
  obtain ⟨-, hsingle, hnone⟩ := accessors_implemented_iff hc
  have hlacks : ¬ ∀ s, Ancestor renamedName.resolve.1 c s → c.Implements s := by
    intro h
    rw [hnone h] at hmissing
    exact absurd hmissing (by decide)
  exact ⟨c, hc, hmissing, hlacks, fun h => hlacks (hsingle h)⟩

end Ontology

end ShapeForge
