import ShapeForge.Package.Loading
import ShapeForge.Proofs.Hierarchy

/-!
# Lookup orders of interfaces

A merge of lists exists exactly if one list without repetitions has all of them as sublists, and
then it is such a list itself (`Interface.merge_isSome_iff`).

The recorded hierarchy has no circles, so no class is higher than there are classes and the bound
on linearizations is never met (`Ontology.lookupOrder_eq`). So a class has a lookup order exactly
if its bases have one each, and these and the list of the bases can be read off one list
(`Ontology.lookupOrder_isSome_iff`). It has none if a base is listed before a class below it
(`Ontology.basesOrdered_of_lookupOrder`). Documents may ask for that: without circles, the bases
are listed as they were declared (`Ontology.basesOrdered_iff`).
-/

namespace ShapeForge

theorem not_sublist_swap {a b : String} {order : List String} (hnd : order.Nodup)
    (h : [a, b].Sublist order) (h' : [b, a].Sublist order) : False := by
  induction order with
  | nil => simp at h
  | cons x xs ih =>
    rw [List.nodup_cons] at hnd
    grind

namespace Interface

/-! ## Merging -/

/-- All lists can be read off one list without repetitions. -/
def Consistent (lists : List (List String)) : Prop :=
  ∃ order : List String, order.Nodup ∧ ∀ l ∈ lists, l.Sublist order

/-- The lists after a name is taken from their heads. -/
def advance (name : String) (lists : List (List String)) : List (List String) :=
  lists.map fun l => if l.head? = some name then l.tail else l

theorem nextHead_spec {lists : List (List String)} {name : String}
    (h : nextHead? lists = some name) :
    (∃ l ∈ lists, l.head? = some name) ∧ ∀ l ∈ lists, name ∉ l.tail := by
  rw [nextHead?] at h
  refine ⟨List.mem_filterMap.1 (List.mem_of_find?_eq_some h), fun l hl hmem => ?_⟩
  have hall := List.find?_some h
  rw [List.all_eq_true] at hall
  simpa [hmem] using hall l hl

theorem merge_succ_iff {fuel : ℕ} {lists : List (List String)} {order : List String} :
    merge (fuel + 1) lists = some order ↔
      (lists.filter (!·.isEmpty) = [] ∧ order = [])
        ∨ ∃ name rest, nextHead? (lists.filter (!·.isEmpty)) = some name
          ∧ merge fuel (advance name (lists.filter (!·.isEmpty))) = some rest
          ∧ order = name :: rest := by
  rw [merge]
  by_cases hl : lists.filter (!·.isEmpty) = []
  · rw [hl, if_pos List.isEmpty_nil, Option.some.injEq]
    refine ⟨fun h => .inl ⟨rfl, h.symm⟩, ?_⟩
    rintro (⟨-, rfl⟩ | ⟨name, rest, hname, -⟩)
    · rfl
    · cases hname
  · rw [if_neg (by simpa using hl)]
    constructor
    · intro h
      obtain ⟨name, hname, h⟩ := Option.bind_eq_some_iff.1 h
      obtain ⟨rest, hrest, h⟩ := Option.bind_eq_some_iff.1 h
      exact .inr ⟨name, rest, hname, hrest, (Option.some.inj h).symm⟩
    · rintro (⟨h, -⟩ | ⟨name, rest, hname, hrest, rfl⟩)
      · exact absurd h hl
      · exact Option.bind_eq_some_iff.2
          ⟨name, hname, Option.bind_eq_some_iff.2 ⟨rest, hrest, rfl⟩⟩

theorem sublist_of_mem_advance {name : String} {lists : List (List String)} {l : List String}
    (h : l ∈ advance name lists) : ∃ l' ∈ lists, l.Sublist l' := by
  obtain ⟨l', hl', rfl⟩ := List.mem_map.1 h
  refine ⟨l', hl', ?_⟩
  split_ifs
  · exact List.tail_sublist l'
  · exact List.Sublist.refl l'

theorem Consistent.step {name : String} {lists : List (List String)} (h : Consistent lists) :
    Consistent (advance name (lists.filter (!·.isEmpty))) := by
  obtain ⟨order, hnd, hsub⟩ := h
  refine ⟨order, hnd, fun l hl => ?_⟩
  obtain ⟨l', hl', hll'⟩ := sublist_of_mem_advance hl
  exact hll'.trans (hsub l' (List.mem_filter.1 hl').1)

theorem sublist_of_merge : ∀ {fuel : ℕ} {lists : List (List String)} {order : List String},
    merge fuel lists = some order → ∀ l ∈ lists, l.Sublist order
  | 0, _, _, h, _, _ => by simp [merge] at h
  | fuel + 1, lists, order, h, [], _ => List.nil_sublist order
  | fuel + 1, lists, order, h, a :: as, hl => by
    have hmem : a :: as ∈ lists.filter (!·.isEmpty) := List.mem_filter.2 ⟨hl, rfl⟩
    rcases merge_succ_iff.1 h with ⟨hempty, -⟩ | ⟨name, rest, -, hrest, rfl⟩
    · rw [hempty] at hmem
      simp at hmem
    · have hsub := sublist_of_merge hrest _ (List.mem_map_of_mem hmem)
      split_ifs at hsub with ha
      · rw [Option.some.inj ha]
        exact hsub.cons_cons name
      · exact hsub.cons name

theorem nodup_of_merge : ∀ {fuel : ℕ} {lists : List (List String)} {order : List String},
    merge fuel lists = some order → order.Nodup
  | 0, _, _, h => by simp [merge] at h
  | fuel + 1, lists, order, h => by
    rcases merge_succ_iff.1 h with ⟨-, rfl⟩ | ⟨name, rest, hname, hrest, rfl⟩
    · exact List.nodup_nil
    · refine List.nodup_cons.2 ⟨fun hmem => ?_, nodup_of_merge hrest⟩
      -- The name was taken from all heads, and it stands in no tail.
      obtain ⟨l, hl, hnl⟩ := mem_of_mem_merge hrest name hmem
      obtain ⟨l', hl', rfl⟩ := List.mem_map.1 hl
      have htail := (nextHead_spec hname).2 l' hl'
      rcases l' with _ | ⟨a, as⟩
      · simp at hnl
      · grind

/-- The first name of the order that some list has is a head and stands in no tail. -/
theorem nextHead_isSome {lists : List (List String)} : ∀ {order : List String}, order.Nodup →
    (∀ l ∈ lists, l.Sublist order) → (∃ l ∈ lists, l ≠ []) → (nextHead? lists).isSome
  | [], _, hsub, ⟨l, hl, hne⟩ => absurd (List.sublist_nil.1 (hsub l hl)) hne
  | a :: order, hnd, hsub, hne => by
    rw [List.nodup_cons] at hnd
    by_cases ha : ∃ l ∈ lists, a ∈ l
    · obtain ⟨l, hl, hal⟩ := ha
      have hcases : ∀ l ∈ lists, l.Sublist order ∨ ∃ r, l = a :: r ∧ r.Sublist order :=
        fun l hl => List.sublist_cons_iff.1 (hsub l hl)
      refine List.find?_isSome.2 ⟨a, List.mem_filterMap.2 ⟨l, hl, ?_⟩, ?_⟩
      · rcases hcases l hl with h | ⟨r, rfl, -⟩
        · exact absurd (h.subset hal) hnd.1
        · rfl
      · refine List.all_eq_true.2 fun m hm => ?_
        have hnot : a ∉ m.tail := by
          rcases hcases m hm with h | ⟨r, rfl, h⟩
          · exact fun hmem => hnd.1 (h.subset (List.mem_of_mem_tail hmem))
          · exact fun hmem => hnd.1 (h.subset hmem)
        simp [hnot]
    · refine nextHead_isSome hnd.2 (fun l hl => ?_) hne
      rcases List.sublist_cons_iff.1 (hsub l hl) with h | ⟨r, rfl, -⟩
      · exact h
      · exact absurd ⟨_, hl, List.mem_cons_self⟩ ha

theorem length_flatten_advance {name : String} {lists : List (List String)}
    (h : ∃ l ∈ lists, l.head? = some name) :
    (advance name lists).flatten.length < lists.flatten.length := by
  rw [List.length_flatten, List.length_flatten, advance, List.map_map]
  refine List.sum_lt_sum _ _ (fun l _ => ?_) ?_
  · simp only [Function.comp_apply]
    split_ifs
    · simp
    · exact le_rfl
  · obtain ⟨l, hl, hhead⟩ := h
    refine ⟨l, hl, ?_⟩
    simp only [Function.comp_apply, if_pos hhead]
    rcases l with _ | ⟨a, as⟩
    · simp at hhead
    · simp

/-- A merge exists exactly if the lists are consistent. -/
theorem merge_isSome_iff : ∀ {fuel : ℕ} {lists : List (List String)},
    lists.flatten.length < fuel → ((merge fuel lists).isSome ↔ Consistent lists)
  | 0, _, hfuel => absurd hfuel (Nat.not_lt_zero _)
  | fuel + 1, lists, hfuel => by
    constructor
    · intro h
      obtain ⟨order, horder⟩ := Option.isSome_iff_exists.1 h
      exact ⟨order, nodup_of_merge horder, sublist_of_merge horder⟩
    · intro h
      rw [Option.isSome_iff_exists]
      by_cases hempty : lists.filter (!·.isEmpty) = []
      · exact ⟨[], merge_succ_iff.2 (.inl ⟨hempty, rfl⟩)⟩
      obtain ⟨order, hnd, hsub⟩ := h
      obtain ⟨l, hl⟩ := List.exists_mem_of_ne_nil _ hempty
      have hsome := nextHead_isSome hnd (fun l hl => hsub l (List.mem_filter.1 hl).1)
        ⟨l, hl, by simpa using (List.mem_filter.1 hl).2⟩
      obtain ⟨name, hname⟩ := Option.isSome_iff_exists.1 hsome
      have hlen : (advance name (lists.filter (!·.isEmpty))).flatten.length < fuel := by
        have hlt := length_flatten_advance (nextHead_spec hname).1
        have hle := (List.filter_sublist (p := (!·.isEmpty)) (l := lists)).flatten.length_le
        omega
      obtain ⟨rest, hrest⟩ := Option.isSome_iff_exists.1
        ((merge_isSome_iff hlen).2 (Consistent.step ⟨order, hnd, hsub⟩))
      exact ⟨_, merge_succ_iff.2 (.inr ⟨name, rest, hname, hrest, rfl⟩)⟩

/-! ## Linearizations -/

theorem mapM_eq_some_iff {f : String → Option (List String)} :
    ∀ {bases : List String} {orders : List (List String)},
      bases.mapM f = some orders ↔ bases.map f = orders.map some
  | [], orders => by
    rw [List.mapM_nil, List.map_nil]
    refine ⟨fun h => ?_, fun h => ?_⟩
    · rw [← Option.some.inj h, List.map_nil]
    · rw [List.map_eq_nil_iff.1 h.symm]
      rfl
  | base :: bases, orders => by
    rw [List.mapM_cons]
    constructor
    · intro h
      obtain ⟨order, horder, h⟩ := Option.bind_eq_some_iff.1 h
      obtain ⟨rest, hrest, h⟩ := Option.bind_eq_some_iff.1 h
      rw [← Option.some.inj h, List.map_cons, List.map_cons, horder, mapM_eq_some_iff.1 hrest]
    · intro h
      rcases orders with _ | ⟨order, rest⟩
      · simp at h
      · rw [List.map_cons, List.map_cons, List.cons.injEq] at h
        rw [h.1, mapM_eq_some_iff.2 h.2]
        rfl

end Interface

/-- What the interface of a class is declared with: its super classes, or the root. -/
def ClassModel.bases (c : ClassModel) : List String :=
  if c.supers.isEmpty then [rootInterface] else c.supers

theorem forM_ok {f : ClassModel → Except LoadError Unit} :
    ∀ {classes : List ClassModel}, classes.forM f = .ok () → ∀ c ∈ classes, f c = .ok ()
  | [], _, c, hc => absurd hc List.not_mem_nil
  | d :: classes, h, c, hc => by
    rw [List.forM] at h
    rcases hd : f d with e | ⟨⟩
    · rw [hd] at h
      cases h
    · rw [hd] at h
      rcases List.mem_cons.1 hc with rfl | hc
      · exact hd
      · exact forM_ok h c hc

theorem Package.loadInterface_of_load {p : Package} (h : p.load = .ok ()) :
    ∀ c ∈ p.classes, c.loadInterface p = .ok () := by
  rw [load] at h
  rcases hnames : p.classes.forM ClassModel.checkName with e | ⟨⟩
  · rw [hnames] at h
    cases h
  rcases hinterfaces : p.classes.forM (ClassModel.loadInterface p) with e | ⟨⟩
  · rw [hnames, hinterfaces] at h
    cases h
  exact forM_ok hinterfaces

namespace Ontology

/-- The package of an ontology. -/
abbrev package (o : Ontology) (options : Options) : Package := ⟨options, o.resolve.1⟩

variable {o : Ontology} {c s : ClassModel}

/-- The number of classes above a class. -/
noncomputable def height (o : Ontology) (c : ClassModel) : ℕ :=
  {s | Ancestor o.resolve.1 c s}.ncard

theorem finite_resolve (o : Ontology) : {s | s ∈ o.resolve.1}.Finite :=
  o.resolve.1.finite_toSet

theorem height_lt (hc : c ∈ o.resolve.1) (hs : s ∈ superModels o.resolve.1 c) :
    o.height s < o.height c := by
  have hsub : {t | Ancestor o.resolve.1 s t} ⊆ {t | Ancestor o.resolve.1 c t} :=
    fun t ht => .head hs ht
  have hs' := o.mem_resolve_of_mem_superModels hc hs
  refine Set.ncard_lt_ncard ⟨hsub, fun h => not_ancestor_self s hs' (h (.single hs))⟩ ?_
  exact o.finite_resolve.subset fun t ht => mem_resolve_of_ancestor hc ht

theorem height_lt_length (hc : c ∈ o.resolve.1) : o.height c < o.resolve.1.length := by
  have hsub : {s | Ancestor o.resolve.1 c s} ⊂ {s | s ∈ o.resolve.1} :=
    ⟨fun s hs => mem_resolve_of_ancestor hc hs, fun h => not_ancestor_self c hc (h hc)⟩
  have hset : {s | s ∈ o.resolve.1} = (o.resolve.1.toFinset : Set ClassModel) := by
    ext s
    simp
  calc o.height c < {s | s ∈ o.resolve.1}.ncard := Set.ncard_lt_ncard hsub o.finite_resolve
    _ = o.resolve.1.toFinset.card := by rw [hset, Set.ncard_coe_finset]
    _ ≤ o.resolve.1.length := o.resolve.1.toFinset_card_le

variable (options : Options)

theorem find_interface (hc : c ∈ o.resolve.1) :
    ((o.package options).interfaces.find? fun t => t.name == c.className) = some c.interface := by
  rw [Package.find_interfaces, o.find_className hc]
  rfl

theorem linearize_root (fuel : ℕ) :
    Interface.linearize (o.package options).interfaces (fuel + 1) rootInterface
      = some [rootInterface] := by
  have hnone : (o.package options).interfaces.find? (fun t => t.name == rootInterface) = none := by
    rw [Package.find_interfaces, Option.map_eq_none_iff, List.find?_eq_none]
    intro d hd h
    exact className_ne_root hd (by simpa using h)
  rw [Interface.linearize, hnone]

theorem mem_bases (hc : c ∈ o.resolve.1) {b : String} (hb : b ∈ c.bases) :
    b = rootInterface ∨ ∃ s ∈ superModels o.resolve.1 c, s.className = b := by
  rw [ClassModel.bases] at hb
  split_ifs at hb
  · exact .inl (List.mem_singleton.1 hb)
  · exact .inr (exists_super_of_mem_supers hc hb)

theorem linearize_succ (hc : c ∈ o.resolve.1) (fuel : ℕ) {order : List String} :
    Interface.linearize (o.package options).interfaces (fuel + 1) c.className = some order ↔
      ∃ orders rest,
        c.bases.map (Interface.linearize (o.package options).interfaces fuel) = orders.map some
          ∧ Interface.merge ((orders ++ [c.bases]).flatten.length + 1) (orders ++ [c.bases])
            = some rest
          ∧ order = c.className :: rest := by
  rw [Interface.linearize, find_interface options hc]
  constructor
  · intro h
    obtain ⟨orders, horders, h⟩ := Option.bind_eq_some_iff.1 h
    obtain ⟨rest, hrest, h⟩ := Option.bind_eq_some_iff.1 h
    exact ⟨orders, rest, Interface.mapM_eq_some_iff.1 horders, hrest, (Option.some.inj h).symm⟩
  · rintro ⟨orders, rest, horders, hrest, rfl⟩
    exact Option.bind_eq_some_iff.2 ⟨orders, Interface.mapM_eq_some_iff.2 horders,
      Option.bind_eq_some_iff.2 ⟨rest, hrest, rfl⟩⟩

theorem map_linearize_bases (hc : c ∈ o.resolve.1) {fuel fuel' : ℕ}
    (h : ∀ s ∈ superModels o.resolve.1 c,
      Interface.linearize (o.package options).interfaces (fuel + 1) s.className
        = Interface.linearize (o.package options).interfaces (fuel' + 1) s.className) :
    c.bases.map (Interface.linearize (o.package options).interfaces (fuel + 1))
      = c.bases.map (Interface.linearize (o.package options).interfaces (fuel' + 1)) := by
  refine List.map_congr_left fun b hb => ?_
  rcases mem_bases hc hb with rfl | ⟨s, hs, rfl⟩
  · rw [linearize_root, linearize_root]
  · exact h s hs

/-- The bound does not matter from the height of the class on. -/
theorem linearize_eq : ∀ c ∈ o.resolve.1, ∀ fuel fuel' : ℕ, o.height c + 2 ≤ fuel →
    o.height c + 2 ≤ fuel' →
      Interface.linearize (o.package options).interfaces fuel c.className
        = Interface.linearize (o.package options).interfaces fuel' c.className := by
  refine o.resolve_induction fun c hc ih fuel fuel' h h' => ?_
  obtain ⟨n, rfl⟩ : ∃ n, fuel = n + 2 := ⟨fuel - 2, by omega⟩
  obtain ⟨n', rfl⟩ : ∃ n', fuel' = n' + 2 := ⟨fuel' - 2, by omega⟩
  have hbases := map_linearize_bases options hc fun s hs => by
    have hlt := height_lt hc hs
    exact ih s hs (n + 1) (n' + 1) (by omega) (by omega)
  refine Option.ext fun order => ?_
  rw [linearize_succ options hc, linearize_succ options hc, hbases]

theorem lookupOrder_eq (hc : c ∈ o.resolve.1) {order : List String} :
    Interface.lookupOrder (o.package options).interfaces c.className = some order ↔
      ∃ orders rest,
        c.bases.map (Interface.lookupOrder (o.package options).interfaces) = orders.map some
          ∧ Interface.merge ((orders ++ [c.bases]).flatten.length + 1) (orders ++ [c.bases])
            = some rest
          ∧ order = c.className :: rest := by
  have hlength : (o.package options).interfaces.length = o.resolve.1.length := List.length_map _
  have hheight := height_lt_length hc
  have hbases : c.bases.map (Interface.linearize (o.package options).interfaces
      ((o.package options).interfaces.length + 1))
        = c.bases.map (Interface.lookupOrder (o.package options).interfaces) := by
    refine map_linearize_bases options hc fun s hs => ?_
    have hlt := height_lt hc hs
    have hs' := o.mem_resolve_of_mem_superModels hc hs
    exact linearize_eq options s hs' _ _ (by omega) (by omega)
  rw [← hbases, Interface.lookupOrder]
  exact linearize_succ options hc _

theorem lookupOrder_root :
    Interface.lookupOrder (o.package options).interfaces rootInterface = some [rootInterface] :=
  linearize_root options _

/-- After the class come its bases in their order, and what comes after each of them in turn. -/
theorem rest_of_lookupOrder (hc : c ∈ o.resolve.1) {order : List String}
    (h : Interface.lookupOrder (o.package options).interfaces c.className = some order) :
    ∃ rest, order = c.className :: rest ∧ rest.Nodup ∧ c.bases.Sublist rest
      ∧ ∀ b ∈ c.bases, ∃ above,
        Interface.lookupOrder (o.package options).interfaces b = some above
          ∧ above.Sublist rest := by
  obtain ⟨orders, rest, horders, hmerge, rfl⟩ := (lookupOrder_eq options hc).1 h
  have hsub := Interface.sublist_of_merge hmerge
  refine ⟨rest, rfl, Interface.nodup_of_merge hmerge, hsub _ (by simp), fun b hb => ?_⟩
  have hmem : Interface.lookupOrder (o.package options).interfaces b ∈ orders.map some := by
    rw [← horders]
    exact List.mem_map_of_mem hb
  obtain ⟨above, habove, heq⟩ := List.mem_map.1 hmem
  exact ⟨above, heq.symm, hsub above (List.mem_append_left _ habove)⟩

theorem lookupOrder_isSome_iff (hc : c ∈ o.resolve.1) :
    (Interface.lookupOrder (o.package options).interfaces c.className).isSome ↔
      ∃ order : List String, order.Nodup ∧ c.bases.Sublist order
        ∧ ∀ b ∈ c.bases, ∃ above,
          Interface.lookupOrder (o.package options).interfaces b = some above
            ∧ above.Sublist order := by
  rw [Option.isSome_iff_exists]
  constructor
  · rintro ⟨order, h⟩
    obtain ⟨rest, -, hrest⟩ := rest_of_lookupOrder options hc h
    exact ⟨rest, hrest⟩
  · rintro ⟨order, hnd, hbases, habove⟩
    set orders :=
      c.bases.map fun b => (Interface.lookupOrder (o.package options).interfaces b).getD []
    have horders : c.bases.map (Interface.lookupOrder (o.package options).interfaces)
        = orders.map some := by
      rw [List.map_map]
      refine List.map_congr_left fun b hb => ?_
      obtain ⟨above, heq, -⟩ := habove b hb
      rw [Function.comp_apply, heq, Option.getD_some]
    have hconsistent : Interface.Consistent (orders ++ [c.bases]) := by
      refine ⟨order, hnd, fun l hl => ?_⟩
      rcases List.mem_append.1 hl with hl | hl
      · obtain ⟨b, hb, rfl⟩ := List.mem_map.1 hl
        obtain ⟨above, heq, hsub⟩ := habove b hb
        rwa [heq, Option.getD_some]
      · rwa [List.mem_singleton.1 hl]
    obtain ⟨rest, hrest⟩ := Option.isSome_iff_exists.1
      ((Interface.merge_isSome_iff (Nat.lt_succ_self _)).2 hconsistent)
    exact ⟨_, (lookupOrder_eq options hc).2 ⟨orders, rest, horders, hrest, rfl⟩⟩

/-- After the class come the root and classes above only. -/
theorem mem_rest_of_lookupOrder (hc : c ∈ o.resolve.1) {rest : List String}
    (h : Interface.lookupOrder (o.package options).interfaces c.className
      = some (c.className :: rest)) {n : String} (hn : n ∈ rest) :
    n = rootInterface ∨ ∃ s, Ancestor o.resolve.1 c s ∧ s.className = n := by
  obtain ⟨orders, rest', horders, hmerge, heq⟩ := (lookupOrder_eq options hc).1 h
  obtain rfl := List.tail_eq_of_cons_eq heq
  obtain ⟨l, hl, hnl⟩ := Interface.mem_of_mem_merge hmerge n hn
  rcases List.mem_append.1 hl with hl | hl
  · have hmem : some l ∈ c.bases.map (Interface.lookupOrder (o.package options).interfaces) := by
      rw [horders]
      exact List.mem_map_of_mem hl
    obtain ⟨b, hb, hbl⟩ := List.mem_map.1 hmem
    rcases mem_bases hc hb with rfl | ⟨s, hs, rfl⟩
    · rw [lookupOrder_root, Option.some.injEq] at hbl
      rw [← hbl, List.mem_singleton] at hnl
      exact .inl hnl
    · have hreach := Interface.reaches_of_mem_linearize _ hbl n hnl
      rcases reaches_interface options (o.mem_resolve_of_mem_superModels hc hs) hreach with
        hroot | ⟨d, rfl | hd, hname⟩
      · exact .inl hroot
      · exact .inr ⟨d, .single hs, hname⟩
      · exact .inr ⟨d, .head hs hd, hname⟩
  · rw [List.mem_singleton.1 hl] at hnl
    rcases mem_bases hc hnl with hroot | ⟨s, hs, hname⟩
    · exact .inl hroot
    · exact .inr ⟨s, .single hs, hname⟩

theorem lookupOrder_nodup (hc : c ∈ o.resolve.1) {order : List String}
    (h : Interface.lookupOrder (o.package options).interfaces c.className = some order) :
    order.Nodup := by
  obtain ⟨rest, rfl, hnd, -, -⟩ := rest_of_lookupOrder options hc h
  refine List.nodup_cons.2 ⟨fun hmem => ?_, hnd⟩
  rcases mem_rest_of_lookupOrder options hc h hmem with hroot | ⟨s, hs, hname⟩
  · exact className_ne_root hc hroot
  · obtain rfl := o.eq_of_className_eq (mem_resolve_of_ancestor hc hs) hc hname
    exact not_ancestor_self s hc hs

/-- A class below at most one other has its lookup order from that one. -/
theorem SingleInheritance.lookupOrder_isSome (h : o.SingleInheritance) : ∀ c ∈ o.resolve.1,
    (Interface.lookupOrder (o.package options).interfaces c.className).isSome := by
  refine o.resolve_induction fun c hc ih => (lookupOrder_isSome_iff options hc).2 ?_
  have hlen := h c hc
  rw [o.supers_eq hc, List.length_map] at hlen
  rw [ClassModel.bases, o.supers_eq hc]
  rcases hsupers : superModels o.resolve.1 c with _ | ⟨s, _ | ⟨t, rest⟩⟩
  · refine ⟨[rootInterface], List.nodup_singleton _, .refl _, fun b hb => ⟨_, ?_, .refl _⟩⟩
    rw [List.mem_singleton.1 hb]
    exact lookupOrder_root options
  · have hs : s ∈ superModels o.resolve.1 c := by rw [hsupers]; exact List.mem_cons_self
    have hs' := o.mem_resolve_of_mem_superModels hc hs
    obtain ⟨above, habove⟩ := Option.isSome_iff_exists.1 (ih s hs)
    refine ⟨above, lookupOrder_nodup options hs' habove, ?_, fun b hb => ⟨above, ?_, .refl _⟩⟩
    · obtain ⟨rest, rfl, -⟩ := rest_of_lookupOrder options hs' habove
      exact (List.nil_sublist rest).cons_cons s.className
    · rwa [List.mem_singleton.1 hb]
  · rw [hsupers] at hlen
    simp at hlen

/-! ## The order of the bases -/

/-- No base of a class is listed before a class below it. -/
def BasesOrdered (o : Ontology) (c : ClassModel) : Prop :=
  (superModels o.resolve.1 c).Pairwise fun s t => ¬ Ancestor o.resolve.1 t s

theorem bases_eq_supers (hc : c ∈ o.resolve.1) (hs : s ∈ superModels o.resolve.1 c) :
    c.bases = (superModels o.resolve.1 c).map ClassModel.className := by
  have hne : (superModels o.resolve.1 c).map ClassModel.className ≠ [] :=
    List.ne_nil_of_mem (List.mem_map_of_mem hs)
  rw [ClassModel.bases, o.supers_eq hc, if_neg (by simpa using hne)]

/-- A lookup order starts with the class, and all classes above follow. -/
theorem mem_lookupOrder_of_ancestor (h : Ancestor o.resolve.1 c s) : c ∈ o.resolve.1 →
    ∀ order, Interface.lookupOrder (o.package options).interfaces c.className = some order →
      [c.className, s.className].Sublist order := by
  induction h using Relation.TransGen.head_induction_on with
  | single hs =>
    intro hc order horder
    obtain ⟨rest, rfl, -, hbases, -⟩ := rest_of_lookupOrder options hc horder
    rw [bases_eq_supers hc hs] at hbases
    exact (List.singleton_sublist.2 (hbases.subset (List.mem_map_of_mem hs))).cons_cons _
  | head ht _ ih =>
    intro hc order horder
    obtain ⟨rest, rfl, -, -, habove⟩ := rest_of_lookupOrder options hc horder
    rw [bases_eq_supers hc ht] at habove
    obtain ⟨above, heq, hsub⟩ := habove _ (List.mem_map_of_mem ht)
    have hs := (ih (o.mem_resolve_of_mem_superModels hc ht) above heq).trans hsub
    exact (List.singleton_sublist.2 (hs.subset (by simp))).cons_cons _

theorem basesOrdered_of_lookupOrder (hc : c ∈ o.resolve.1)
    (h : (Interface.lookupOrder (o.package options).interfaces c.className).isSome) :
    o.BasesOrdered c := by
  obtain ⟨order, horder⟩ := Option.isSome_iff_exists.1 h
  obtain ⟨rest, -, hnd, hbases, habove⟩ := rest_of_lookupOrder options hc horder
  refine List.pairwise_iff_forall_sublist.2 fun {s t} hst hts => ?_
  have ht : t ∈ superModels o.resolve.1 c := hst.subset (by simp)
  rw [bases_eq_supers hc ht] at hbases habove
  obtain ⟨above, heq, hsub⟩ := habove _ (List.mem_map_of_mem ht)
  have hts' := mem_lookupOrder_of_ancestor options hts (o.mem_resolve_of_mem_superModels hc ht)
    above heq
  exact not_sublist_swap hnd ((hst.map _).trans hbases) (hts'.trans hsub)

-- The order of the bases is not enough: here it is kept everywhere, but the two bases of the last
-- interface disagree.
example : Interface.lookupOrder
    [{ name := "A" }, { name := "B" }, { name := "C", bases := ["A", "B"] },
     { name := "D", bases := ["B", "A"] }, { name := "E", bases := ["C", "D"] }] "E" = none := by
  decide

theorem exists_ancestor_of_subClassOf (hunique : (o.classes.map DeclaredClass.iri).Nodup)
    (h : o.Acyclic) (hc : c ∈ o.resolve.1) {x : String}
    (hx : Relation.TransGen o.SubClassOf c.iri x) : ∃ s, Ancestor o.resolve.1 c s ∧ s.iri = x := by
  induction hx with
  | single hx =>
    obtain ⟨s, hs, hiri⟩ := exists_super_of_subClassOf hunique h hc hx
    exact ⟨s, .single hs, hiri⟩
  | tail _ hyx ih =>
    obtain ⟨t, ht, rfl⟩ := ih
    obtain ⟨s, hs, hiri⟩ :=
      exists_super_of_subClassOf hunique h (mem_resolve_of_ancestor hc ht) hyx
    exact ⟨s, ht.tail hs, hiri⟩

/-- Without circles, the classes above a class are those that its declaration leads to. -/
theorem ancestor_iff (hunique : (o.classes.map DeclaredClass.iri).Nodup) (h : o.Acyclic)
    (hc : c ∈ o.resolve.1) (hs : s ∈ o.resolve.1) :
    Ancestor o.resolve.1 c s ↔ Relation.TransGen o.SubClassOf c.iri s.iri := by
  constructor
  · intro hcs
    induction hcs with
    | single hcs => exact .single (subClassOf_of_up (up_of_mem_superModels hc hcs))
    | tail hct hts ih =>
      have ht := mem_resolve_of_ancestor hc hct
      exact (ih ht).tail (subClassOf_of_up (up_of_mem_superModels ht hts))
  · intro hcs
    obtain ⟨t, ht, hiri⟩ := exists_ancestor_of_subClassOf hunique h hc hcs
    rwa [← o.eq_of_iri_eq (mem_resolve_of_ancestor hc ht) hs hiri]

theorem basesOrdered_iff (hunique : (o.classes.map DeclaredClass.iri).Nodup) (h : o.Acyclic)
    (hc : c ∈ o.resolve.1) :
    o.BasesOrdered c ↔
      ((o.supersOf c.iri).filter (· ∈ o.matched.map DeclaredClass.iri)).Pairwise
        fun x y => ¬ Relation.TransGen o.SubClassOf y x := by
  rw [← superModels_iris h hc, List.pairwise_map, BasesOrdered]
  refine List.Pairwise.iff_of_mem fun {s t} hs ht => not_congr ?_
  exact ancestor_iff hunique h (o.mem_resolve_of_mem_superModels hc ht)
    (o.mem_resolve_of_mem_superModels hc hs)

theorem lookupOrder_of_load (h : (o.package options).load = .ok ()) (hc : c ∈ o.resolve.1) :
    (Interface.lookupOrder (o.package options).interfaces c.className).isSome := by
  have hload := Package.loadInterface_of_load h c hc
  unfold ClassModel.loadInterface at hload
  split_ifs at hload with hreadable hnone
  rw [Option.isNone_iff_eq_none] at hnone
  exact Option.isSome_iff_ne_none.2 hnone

/-- A class has a lookup order exactly if its bases have one each, and these and the list of the
bases can be read off one list; so always if no class has two super classes. It has none if it
lists a base before a class below it, and then the package does not load. Without circles, that is
up to the declaration of the class. -/
theorem lookup_order_iff (hc : c ∈ o.resolve.1) :
    ((Interface.lookupOrder (o.package options).interfaces c.className).isSome ↔
        ∃ order : List String, order.Nodup ∧ c.bases.Sublist order
          ∧ ∀ b ∈ c.bases, ∃ above,
            Interface.lookupOrder (o.package options).interfaces b = some above
              ∧ above.Sublist order)
      ∧ ((Interface.lookupOrder (o.package options).interfaces c.className).isSome →
        o.BasesOrdered c)
      ∧ ((o.classes.map DeclaredClass.iri).Nodup → o.Acyclic →
        (o.BasesOrdered c ↔
          ((o.supersOf c.iri).filter (· ∈ o.matched.map DeclaredClass.iri)).Pairwise
            fun x y => ¬ Relation.TransGen o.SubClassOf y x))
      ∧ (o.SingleInheritance →
        (Interface.lookupOrder (o.package options).interfaces c.className).isSome)
      ∧ ((o.package options).load = .ok () →
        (Interface.lookupOrder (o.package options).interfaces c.className).isSome) :=
  ⟨lookupOrder_isSome_iff options hc, basesOrdered_of_lookupOrder options hc,
    fun hunique h => basesOrdered_iff hunique h hc,
    fun h => h.lookupOrder_isSome options c hc, fun h => lookupOrder_of_load options h hc⟩

/-- A class that is put below another one and, once more, below the super class of that one. -/
def redundant : Ontology where
  shapes :=
    [⟨"a", "http://ex.org/A", []⟩, ⟨"b", "http://ex.org/B", []⟩, ⟨"c", "http://ex.org/C", []⟩]
  classes :=
    [⟨"http://ex.org/A", "A", []⟩, ⟨"http://ex.org/B", "B", ["http://ex.org/A"]⟩,
     ⟨"http://ex.org/C", "C", ["http://ex.org/A", "http://ex.org/B"]⟩]

/-- The super class is listed first, and the package does not load. -/
theorem redundant_no_lookupOrder : (redundant.classes.map DeclaredClass.iri).Nodup
    ∧ redundant.Acyclic
    ∧ ∃ c ∈ redundant.resolve.1, c.supers = ["A", "B"] ∧ ¬ redundant.BasesOrdered c
      ∧ Interface.lookupOrder (redundant.package ⟨"d", "p", true, false, true⟩).interfaces
        c.className = none
      ∧ (redundant.package ⟨"d", "p", true, false, true⟩).load ≠ .ok () := by
  have hnodup : (redundant.classes.map DeclaredClass.iri).Nodup := by decide
  have hacyclic : redundant.Acyclic :=
    acyclic_of_rank (fun iri => (redundant.classes.map DeclaredClass.iri).idxOf iri) (by decide)
  have hfound : ∃ c ∈ redundant.evaluate, c.iri = "http://ex.org/C" ∧ c.supers = ["A", "B"] := by
    decide +kernel
  rw [← resolve_eq_evaluate] at hfound
  obtain ⟨c, hc, hiri, hsupers⟩ := hfound
  obtain ⟨-, hordered, hdeclared, -, hload⟩ :=
    lookup_order_iff ⟨"d", "p", true, false, true⟩ hc
  have hnot : ¬ redundant.BasesOrdered c := by
    have hsub : redundant.SubClassOf "http://ex.org/B" "http://ex.org/A" := by
      rw [SubClassOf]
      decide
    have hlisted : (redundant.supersOf "http://ex.org/C").filter
        (· ∈ redundant.matched.map DeclaredClass.iri) = ["http://ex.org/A", "http://ex.org/B"] := by
      decide
    rw [hdeclared hnodup hacyclic, hiri, hlisted]
    intro h
    exact List.rel_of_pairwise_cons h List.mem_cons_self (.single hsub)
  have hnone : Interface.lookupOrder
      (redundant.package ⟨"d", "p", true, false, true⟩).interfaces c.className = none := by
    rw [← Option.not_isSome_iff_eq_none]
    exact fun h => hnot (hordered h)
  exact ⟨hnodup, hacyclic, c, hc, hsupers, hnot, hnone, fun h => hnot (hordered (hload h))⟩

end Ontology

end ShapeForge
