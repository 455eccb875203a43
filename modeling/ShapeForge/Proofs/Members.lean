import ShapeForge.Package.Basic
import ShapeForge.Proofs.Resolution

/-!
# Members of a class

A class inherits one property for each predicate of its super classes, as the first of them that
has the predicate gives it (`find_inherited`). Its own shapes then keep the names of inherited
predicates and give all others names of their own (`Extends`, `classModel_extends`).

So the properties of a class always have distinct predicates, and their names are distinct exactly
if the inherited ones are (`Extends.names_nodup_iff`). With distinct names a class has a rule for
every property.
-/

namespace ShapeForge

/-- What a property is known by: its name and its predicate. -/
def PropertyModel.key (p : PropertyModel) : String × String := (p.name, p.iri)

def PropertyModel.asInherited (p : PropertyModel) : PropertyModel := { p with inherited := true }

theorem find_of_nodup_map {α : Type} {f : α → String} {l : List α} (h : (l.map f).Nodup) {a : α}
    (ha : a ∈ l) : l.find? (fun b => f b == f a) = some a :=
  find_of_inj ha fun _ hb he => List.inj_on_of_nodup_map h hb ha he

theorem mem_of_find_iri {l : List PropertyModel} {p : PropertyModel} {iri : String}
    (h : l.find? (·.iri == iri) = some p) : p ∈ l ∧ p.iri = iri :=
  ⟨List.mem_of_find?_eq_some h, by simpa using List.find?_some h⟩

namespace Model

open Naming (Allocator)

/-! ## What is inherited -/

/-- One step of inheriting: a predicate that is there already is left out. -/
def keepFirst (found : List PropertyModel) (p : PropertyModel) : List PropertyModel :=
  if found.any (·.iri == p.iri) then found else found ++ [p.asInherited]

/-- What a class inherits. -/
def inherited (supers : List ClassModel) : List PropertyModel := supers.foldl inheritFrom []

theorem foldl_inheritFrom : ∀ (supers : List ClassModel) (found : List PropertyModel),
    supers.foldl inheritFrom found
      = (supers.flatMap ClassModel.properties).foldl keepFirst found
  | [], _ => rfl
  | s :: rest, found => by
    rw [List.foldl_cons, List.flatMap_cons, List.foldl_append]
    exact foldl_inheritFrom rest (s.properties.foldl keepFirst found)

theorem keepFirst_iris_nodup {found : List PropertyModel} (p : PropertyModel)
    (h : (found.map PropertyModel.iri).Nodup) :
    ((keepFirst found p).map PropertyModel.iri).Nodup := by
  unfold keepFirst
  split_ifs with hp
  · exact h
  · rw [List.map_append, List.map_singleton]
    refine h.append (List.nodup_singleton _) ?_
    rw [List.disjoint_singleton, List.mem_map]
    rintro ⟨q, hq, he⟩
    exact hp (List.any_eq_true.2 ⟨q, hq, by simpa [PropertyModel.asInherited] using he⟩)

theorem inherited_iris_nodup (supers : List ClassModel) :
    ((inherited supers).map PropertyModel.iri).Nodup := by
  have run : ∀ (ps found : List PropertyModel), (found.map PropertyModel.iri).Nodup →
      ((ps.foldl keepFirst found).map PropertyModel.iri).Nodup := by
    intro ps
    induction ps with
    | nil => exact fun _ h => h
    | cons p ps ih => exact fun found h => ih _ (keepFirst_iris_nodup p h)
  rw [inherited, foldl_inheritFrom]
  exact run _ [] List.nodup_nil

theorem find_keepFirst (found : List PropertyModel) (p : PropertyModel) (iri : String) :
    (keepFirst found p).find? (·.iri == iri)
      = (found.find? (·.iri == iri)).or (if p.iri == iri then some p.asInherited else none) := by
  unfold keepFirst
  split_ifs with hp hi hi
  · obtain ⟨q, hq, he⟩ := List.any_eq_true.1 hp
    rw [beq_iff_eq] at he hi
    rcases hf : found.find? (·.iri == iri) with _ | r
    · exact absurd (List.find?_eq_none.1 hf q hq) (by simp [he, hi])
    · rw [hf]
      rfl
  · rw [Option.or_none]
  · rw [List.find?_append]
    simp [PropertyModel.asInherited, hi]
  · rw [List.find?_append]
    simp [PropertyModel.asInherited, hi]

/-- A predicate is inherited as the first property with it is. -/
theorem find_inherited (supers : List ClassModel) (iri : String) :
    (inherited supers).find? (·.iri == iri)
      = ((supers.flatMap ClassModel.properties).find? (·.iri == iri)).map
        PropertyModel.asInherited := by
  have run : ∀ (ps found : List PropertyModel), (ps.foldl keepFirst found).find? (·.iri == iri)
      = (found.find? (·.iri == iri)).or
        ((ps.find? (·.iri == iri)).map PropertyModel.asInherited) := by
    intro ps
    induction ps with
    | nil => simp
    | cons p ps ih =>
      intro found
      rw [List.foldl_cons, ih, find_keepFirst, List.find?_cons, Option.or_assoc]
      rcases p.iri == iri with _ | _ <;> rfl
  rw [inherited, foldl_inheritFrom, run]
  rfl

/-! ## What the own shapes of a class add -/

/-- The members are those of `start`, each under its name, and the `fresh` ones: these have other
predicates, and names that no other member has. -/
structure Extends (start : List PropertyModel) (fresh : List (String × String))
    (members : List PropertyModel) : Prop where
  perm : (members.map PropertyModel.key).Perm (start.map PropertyModel.key ++ fresh)
  iris : ((start.map PropertyModel.key ++ fresh).map (·.2)).Nodup
  names : (fresh.map (·.1)).Nodup
  apart : ∀ e ∈ fresh, ∀ p ∈ start, e.1 ≠ p.name

namespace Extends

variable {start members : List PropertyModel} {fresh : List (String × String)}

theorem iris_nodup (h : Extends start fresh members) : (members.map PropertyModel.iri).Nodup := by
  have hp := (h.perm.map (·.2)).nodup_iff.2 h.iris
  rwa [List.map_map] at hp

theorem exists_mem (h : Extends start fresh members) {p : PropertyModel} (hp : p ∈ start) :
    ∃ q ∈ members, q.name = p.name ∧ q.iri = p.iri := by
  have hk : p.key ∈ members.map PropertyModel.key :=
    h.perm.mem_iff.2 (List.mem_append_left _ (List.mem_map_of_mem hp))
  obtain ⟨q, hq, he⟩ := List.mem_map.1 hk
  simp only [PropertyModel.key, Prod.mk.injEq] at he
  exact ⟨q, hq, he⟩

/-- Names can only clash among those that were there at the start. -/
theorem names_nodup_iff (h : Extends start fresh members) :
    (members.map PropertyModel.name).Nodup ↔ (start.map PropertyModel.name).Nodup := by
  have hp := h.perm.map (·.1)
  rw [List.map_map, List.map_append, List.map_map] at hp
  rw [show members.map PropertyModel.name = members.map (Prod.fst ∘ PropertyModel.key) from rfl,
    hp.nodup_iff, List.nodup_append']
  refine ⟨fun hn => hn.1, fun hn => ⟨hn, h.names, ?_⟩⟩
  intro name hs hf
  obtain ⟨p, hps, rfl⟩ := List.mem_map.1 hs
  obtain ⟨e, he, heq⟩ := List.mem_map.1 hf
  exact h.apart e he p hps heq

theorem replace {own inherited : List PropertyModel} (h : Extends start fresh (own ++ inherited))
    {p q : PropertyModel} (hq : q ∈ inherited) (hk : p.key = q.key) :
    Extends start fresh (own ++ [p] ++ inherited.erase q) := by
  refine ⟨?_, h.iris, h.names, h.apart⟩
  refine List.Perm.trans ?_ h.perm
  rw [List.append_assoc, List.singleton_append, List.map_append, List.map_append, List.map_cons, hk]
  exact ((List.perm_cons_erase hq).map PropertyModel.key).symm.append_left _

theorem insert {own inherited : List PropertyModel} (h : Extends start fresh (own ++ inherited))
    {p : PropertyModel} (hi : p.iri ∉ (own ++ inherited).map PropertyModel.iri)
    (hn : ∀ e ∈ start.map PropertyModel.key ++ fresh, e.1 ≠ p.name) :
    Extends start (fresh ++ [p.key]) (own ++ [p] ++ inherited) := by
  have hfresh : ∀ e ∈ fresh, e.1 ≠ p.name := fun e he => hn e (List.mem_append_right _ he)
  have hstart : ∀ q ∈ start, q.name ≠ p.name := fun q hq =>
    hn q.key (List.mem_append_left _ (List.mem_map_of_mem hq))
  refine ⟨?_, ?_, ?_, ?_⟩
  · have hmove : (own ++ [p] ++ inherited).Perm (own ++ inherited ++ [p]) := by
      rw [List.append_assoc, List.append_assoc]
      exact List.perm_append_comm.append_left own
    refine (hmove.map PropertyModel.key).trans ?_
    rw [List.map_append, ← List.append_assoc]
    exact h.perm.append_right _
  · rw [← List.append_assoc, List.map_append]
    refine h.iris.append (List.nodup_singleton _) (List.disjoint_singleton.2 ?_)
    rw [← (h.perm.map (·.2)).mem_iff, List.map_map]
    exact hi
  · rw [List.map_append]
    refine h.names.append (List.nodup_singleton _) (List.disjoint_singleton.2 ?_)
    rw [List.mem_map]
    rintro ⟨e, he, heq⟩
    exact hfresh e he heq
  · intro e he q hq
    rcases List.mem_append.1 he with he | he
    · exact h.apart e he q hq
    · rw [List.mem_singleton.1 he]
      exact (hstart q hq).symm

end Extends

namespace Members

variable (o : Ontology) (names : List (String × ClassNames)) {m : Members}
  {start : List PropertyModel} {fresh : List (String × String)}

/-- What is known before and after each declared property. -/
structure Sound (start : List PropertyModel) (fresh : List (String × String)) (m : Members) :
    Prop where
  extends_start : Extends start fresh (m.own ++ m.inherited)
  taken : ∀ e ∈ start.map PropertyModel.key ++ fresh, e.1 ∈ m.names.taken

/-- A declared property counts once, keeps the name under which it is inherited, or gets a name
that is free. -/
theorem Sound.add (h : m.Sound start fresh) (p : PropertyShape) :
    ∃ fresh', (m.add o names p).Sound start fresh' := by
  unfold Members.add
  split_ifs with hown
  · exact ⟨fresh, h⟩
  rcases hf : m.inherited.find? (·.iri == p.path) with _ | q
  · -- Neither an own nor an inherited property has the predicate, and the claimed name is free.
    have hchosen := (m.names.admits_iff.1 (m.names.admits_choose
      (memberName o.context p) .none)).1
    have hiri : p.path ∉ (m.own ++ m.inherited).map PropertyModel.iri := by
      rw [List.mem_map]
      rintro ⟨r, hr, he⟩
      rcases List.mem_append.1 hr with hr | hr
      · exact hown (List.any_eq_true.2 ⟨r, hr, by simpa using he⟩)
      · exact List.find?_eq_none.1 hf r hr (by simpa using he)
    simp only [hf, Allocator.claim]
    refine ⟨_, h.extends_start.insert hiri fun e he heq => ?_, ?_⟩
    · have htaken := h.taken e he
      rw [heq] at htaken
      exact hchosen htaken
    · intro e he
      rw [← List.append_assoc, List.mem_append] at he
      rw [Allocator.mem_taken_reserve]
      rcases he with he | he
      · exact .inr (h.taken e he)
      · exact .inl (by rw [List.mem_singleton.1 he]; rfl)
  · -- The inherited property moves to the own ones; its key stays, so nothing is claimed.
    obtain ⟨hq, hiri⟩ := mem_of_find_iri hf
    simp only [hf]
    refine ⟨fresh, h.extends_start.replace hq ?_, h.taken⟩
    rw [PropertyModel.key, PropertyModel.key, hiri]

theorem Sound.foldl_add : ∀ (ps : List PropertyShape) {m : Members}
    {fresh : List (String × String)}, m.Sound start fresh →
      ∃ fresh', (ps.foldl (Members.add o names) m).Sound start fresh'
  | [], _, fresh, h => ⟨fresh, h⟩
  | p :: ps, _, _, h => by
    obtain ⟨fresh', h'⟩ := h.add o names p
    exact foldl_add ps h'

end Members

theorem classModel_extends (o : Ontology) (names : List (String × ClassNames)) (iri : String)
    (supers : List ClassModel) :
    ∃ fresh, Extends (inherited supers) fresh (classModel o names iri supers).1.properties := by
  have hstart (scope : String) : Members.Sound (inherited supers) []
      { inherited := inherited supers
        names := { scope, taken := (inherited supers).map PropertyModel.name } } := by
    refine ⟨⟨by simp, ?_, by simp, by simp⟩, ?_⟩
    · rw [List.append_nil, List.map_map]
      exact inherited_iris_nodup supers
    · intro e he
      rw [List.append_nil, List.mem_map] at he
      obtain ⟨p, hp, rfl⟩ := he
      exact List.mem_map_of_mem hp
  exact ((hstart _).foldl_add o names _).imp fun _ h => h.extends_start

/-- The name under which a predicate is inherited. -/
def inheritedName? (supers : List ClassModel) (iri : String) : Option String :=
  ((supers.flatMap ClassModel.properties).find? (·.iri == iri)).map PropertyModel.name

theorem inheritedName?_eq (supers : List ClassModel) (iri : String) :
    inheritedName? supers iri
      = ((inherited supers).find? (·.iri == iri)).map PropertyModel.name := by
  rw [inheritedName?, find_inherited, Option.map_map]
  rfl

theorem inherited_names_nodup_iff (supers : List ClassModel) :
    ((inherited supers).map PropertyModel.name).Nodup ↔
      ∀ i j name, inheritedName? supers i = some name → inheritedName? supers j = some name →
        i = j := by
  have hiris := inherited_iris_nodup supers
  rw [List.nodup_map_iff_inj_on hiris.of_map]
  constructor
  · intro hinj i j name hi hj
    rw [inheritedName?_eq] at hi hj
    obtain ⟨p, hp, rfl⟩ := Option.map_eq_some_iff.1 hi
    obtain ⟨q, hq, he⟩ := Option.map_eq_some_iff.1 hj
    obtain ⟨hmp, rfl⟩ := mem_of_find_iri hp
    obtain ⟨hmq, rfl⟩ := mem_of_find_iri hq
    rw [hinj p hmp q hmq he.symm]
  · intro hone p hp q hq he
    refine List.inj_on_of_nodup_map hiris hp hq (hone p.iri q.iri p.name ?_ ?_)
    · rw [inheritedName?_eq, find_of_nodup_map hiris hp]
      rfl
    · rw [inheritedName?_eq, find_of_nodup_map hiris hq, he]
      rfl

end Model

/-! ## Rules -/

namespace Assoc

variable {α β : Type} (f : α → String) (g : α → β)

theorem put_of_not_mem {key : String} {value : β} :
    ∀ {entries : List (String × β)}, key ∉ entries.map (·.1) →
      put key value entries = entries ++ [(key, value)]
  | [], _ => rfl
  | (k, v) :: rest, h => by
    rw [List.map_cons, List.mem_cons, not_or] at h
    rw [put, if_neg (Ne.symm h.1), put_of_not_mem h.2]
    rfl

theorem put_keys_nodup {key : String} {value : β} {entries : List (String × β)}
    (h : (entries.map (·.1)).Nodup) : ((put key value entries).map (·.1)).Nodup := by
  rw [List.Nodup, List.pairwise_map] at h ⊢
  exact pairwise_put h h fun e _ he => ⟨he, he.symm⟩

theorem foldl_put_keys : ∀ (l : List α) (entries : List (String × β)),
    (entries.map (·.1)).Nodup →
      ((l.foldl (fun entries a => put (f a) (g a) entries) entries).map (·.1)).Nodup
        ∧ ∀ key, key ∈ (l.foldl (fun entries a => put (f a) (g a) entries) entries).map (·.1) ↔
          key ∈ entries.map (·.1) ∨ key ∈ l.map f
  | [], _, h => ⟨h, by simp⟩
  | a :: l, entries, h => by
    obtain ⟨hnodup, hmem⟩ := foldl_put_keys l (put (f a) (g a) entries) (put_keys_nodup h)
    refine ⟨hnodup, fun key => ?_⟩
    rw [List.foldl_cons, hmem, mem_keys_put, List.map_cons, List.mem_cons, or_assoc, or_left_comm]

theorem foldl_put_of_nodup : ∀ (l : List α) (entries : List (String × β)),
    (l.map f).Nodup → (∀ a ∈ l, f a ∉ entries.map (·.1)) →
      l.foldl (fun entries a => put (f a) (g a) entries) entries
        = entries ++ l.map fun a => (f a, g a)
  | [], entries, _, _ => by simp
  | a :: l, entries, h, hnew => by
    rw [List.map_cons, List.nodup_cons] at h
    rw [List.foldl_cons, put_of_not_mem (hnew a List.mem_cons_self),
      foldl_put_of_nodup l _ h.2, List.map_cons, List.append_assoc, List.singleton_append]
    intro b hb
    rw [List.map_append, List.mem_append, not_or]
    refine ⟨hnew b (List.mem_cons_of_mem _ hb), fun he => h.1 ?_⟩
    rw [List.map_singleton, List.mem_singleton] at he
    exact List.mem_map.2 ⟨b, hb, he⟩

/-- A table made from a list has a value for each of its members exactly if no two of them have
one key. -/
theorem foldl_put_values_iff (l : List α) :
    (l.foldl (fun entries a => put (f a) (g a) entries) []).map (·.2) = l.map g ↔
      (l.map f).Nodup := by
  constructor
  · intro h
    obtain ⟨hnodup, hmem⟩ := foldl_put_keys f g l [] List.nodup_nil
    -- The table has as many keys as the list has members, and no other keys.
    have hlen := congrArg List.length h
    rw [List.length_map, List.length_map] at hlen
    have hset : (l.map f).toFinset
        = ((l.foldl (fun entries a => put (f a) (g a) entries) []).map (·.1)).toFinset := by
      ext key
      rw [List.mem_toFinset, List.mem_toFinset, hmem]
      simp
    refine Multiset.coe_nodup.1 (Multiset.toFinset_card_eq_card_iff_nodup.1 ?_)
    calc (l.map f).toFinset.card
        = (l.foldl (fun entries a => put (f a) (g a) entries) []).length := by
          rw [hset, List.toFinset_card_of_nodup hnodup, List.length_map]
      _ = (l.map f).length := by rw [hlen, List.length_map]
  · intro h
    rw [foldl_put_of_nodup f g l [] h (by simp), List.nil_append, List.map_map]
    rfl

end Assoc

namespace ClassModel

variable {c : ClassModel}

theorem rules_eq_iff :
    c.rules = c.properties.map PropertyModel.rule ↔ (c.properties.map PropertyModel.name).Nodup :=
  Assoc.foldl_put_values_iff PropertyModel.name PropertyModel.rule c.properties

theorem property?_iff (h : c.properties.Nodup) :
    (∀ p ∈ c.properties, c.property? p.name = some p) ↔
      (c.properties.map PropertyModel.name).Nodup := by
  constructor
  · intro hfind
    refine h.map_on fun p hp q hq he => ?_
    have hpq := hfind p hp
    rw [he, hfind q hq] at hpq
    exact (Option.some.inj hpq).symm
  · intro hn p hp
    have hr : (c.properties.reverse.map PropertyModel.name).Nodup := by
      rw [List.map_reverse]
      exact List.nodup_reverse.2 hn
    exact find_of_nodup_map hr (List.mem_reverse.2 hp)

end ClassModel

/-! ## Classes of an ontology -/

namespace Ontology

variable {o : Ontology} {c : ClassModel}

theorem extends_of_mem_resolve (hc : c ∈ o.resolve.1) :
    ∃ fresh, Model.Extends (Model.inherited (superModels o.resolve.1 c)) fresh c.properties := by
  obtain ⟨fresh, h⟩ :=
    Model.classModel_extends o o.classNames c.iri (superModels o.resolve.1 c)
  rw [← (o.eq_classModel_of_mem_resolve hc).1] at h
  exact ⟨fresh, h⟩

theorem property_iris_nodup (hc : c ∈ o.resolve.1) :
    (c.properties.map PropertyModel.iri).Nodup := by
  obtain ⟨fresh, h⟩ := extends_of_mem_resolve hc
  exact h.iris_nodup

/-- No class has two super classes. -/
def SingleInheritance (o : Ontology) : Prop := ∀ c ∈ o.resolve.1, c.supers.length ≤ 1

theorem SingleInheritance.eq_of_mem_superModels (h : o.SingleInheritance) (hc : c ∈ o.resolve.1)
    {s t : ClassModel} (hs : s ∈ superModels o.resolve.1 c) (ht : t ∈ superModels o.resolve.1 c) :
    s = t := by
  have hlen := h c hc
  rw [o.supers_eq hc, List.length_map] at hlen
  obtain ⟨u, hu⟩ := List.length_eq_one_iff.1 (le_antisymm hlen (List.length_pos_of_mem hs))
  rw [hu, List.mem_singleton] at hs ht
  rw [hs, ht]

theorem SingleInheritance.names_nodup (h : o.SingleInheritance) :
    ∀ c ∈ o.resolve.1, (c.properties.map PropertyModel.name).Nodup := by
  refine o.resolve_induction fun c hc ih => ?_
  obtain ⟨fresh, hext⟩ := extends_of_mem_resolve hc
  rw [hext.names_nodup_iff, Model.inherited_names_nodup_iff]
  intro i j name hi hj
  obtain ⟨p, hp, rfl⟩ := Option.map_eq_some_iff.1 hi
  obtain ⟨q, hq, hname⟩ := Option.map_eq_some_iff.1 hj
  obtain ⟨hmp, rfl⟩ := mem_of_find_iri hp
  obtain ⟨hmq, rfl⟩ := mem_of_find_iri hq
  obtain ⟨s, hs, hps⟩ := List.mem_flatMap.1 hmp
  obtain ⟨t, ht, hqt⟩ := List.mem_flatMap.1 hmq
  -- Both properties come from the only super class.
  rw [h.eq_of_mem_superModels hc ht hs] at hqt
  rw [List.inj_on_of_nodup_map (ih s hs) hqt hps hname]

/-- The properties of a class have distinct names exactly if no two predicates are inherited under
one name, so always if no class has two super classes. Only then has the class a rule for each
property, and does each name denote its property. -/
theorem property_names_distinct_iff (hc : c ∈ o.resolve.1) :
    ((c.properties.map PropertyModel.name).Nodup ↔
        ∀ i j name, Model.inheritedName? (superModels o.resolve.1 c) i = some name →
          Model.inheritedName? (superModels o.resolve.1 c) j = some name → i = j)
      ∧ (o.SingleInheritance → (c.properties.map PropertyModel.name).Nodup)
      ∧ (c.rules = c.properties.map PropertyModel.rule ↔
        (c.properties.map PropertyModel.name).Nodup)
      ∧ ((∀ p ∈ c.properties, c.property? p.name = some p) ↔
        (c.properties.map PropertyModel.name).Nodup) := by
  obtain ⟨fresh, h⟩ := extends_of_mem_resolve hc
  have hnodup : c.properties.Nodup := (property_iris_nodup hc).of_map
  exact ⟨h.names_nodup_iff.trans (Model.inherited_names_nodup_iff _),
    fun hsingle => hsingle.names_nodup c hc, ClassModel.rules_eq_iff,
    ClassModel.property?_iff hnodup⟩

/-- Two classes with a property of the same name for different predicates, and a class below
both. -/
def twoNames : Ontology where
  shapes :=
    [⟨"a", "http://ex.org/A", [{ path := "http://ex.org/name", name := "name" }]⟩,
     ⟨"b", "http://ex.org/B", [{ path := "http://other.org/name", name := "name" }]⟩,
     ⟨"c", "http://ex.org/C", []⟩]
  classes :=
    [⟨"http://ex.org/A", "A", []⟩, ⟨"http://ex.org/B", "B", []⟩,
     ⟨"http://ex.org/C", "C", ["http://ex.org/A", "http://ex.org/B"]⟩]

/-- The class below inherits both names, and one of its properties has no rule. -/
theorem twoNames_clash : ∃ c ∈ twoNames.resolve.1,
    c.properties.map PropertyModel.key
        = [("name", "http://ex.org/name"), ("name", "http://other.org/name")]
      ∧ ¬ (c.properties.map PropertyModel.name).Nodup
      ∧ c.rules ≠ c.properties.map PropertyModel.rule
      ∧ ¬ ∀ p ∈ c.properties, c.property? p.name = some p := by
  have hfound : ∃ c ∈ twoNames.evaluate, c.properties.map PropertyModel.key
      = [("name", "http://ex.org/name"), ("name", "http://other.org/name")] := by
    decide +kernel
  rw [← resolve_eq_evaluate] at hfound
  obtain ⟨c, hc, hkeys⟩ := hfound
  obtain ⟨-, -, hrules, hproperty⟩ := property_names_distinct_iff hc
  have hclash : ¬ (c.properties.map PropertyModel.name).Nodup := by
    have hnames := congrArg (List.map Prod.fst) hkeys
    rw [List.map_map] at hnames
    rw [show PropertyModel.name = Prod.fst ∘ PropertyModel.key from rfl, hnames]
    decide
  exact ⟨c, hc, hkeys, hclash, fun h => hclash (hrules.1 h), fun h => hclash (hproperty.1 h)⟩

end Ontology

end ShapeForge
