import ShapeForge.Proofs.Extraction
import ShapeForge.Proofs.ViolationReports

/-!
# The order in which properties stand

Properties are arranged by the places of their orders on the number line, and those without an order
stand behind all others (`Shape.rank`). As long as every order is a number, two properties compare
as their ranks do (`Shape.before_eq`), so arranging is a stable sort by a linear order.

Sorting by a key keeps each class of equal keys as it stands (`filter_mergeSort_byKey`), and a
sorted list is made up of these classes in one way only (`eq_of_filter_key`).
-/

namespace ShapeForge

/-! ## Sorting by a key -/

section Key

variable {α β : Type} [LinearOrder β]

/-- Whether the key of the first is at most that of the second. -/
def byKey (key : α → β) (a b : α) : Bool := decide (key a ≤ key b)

variable (key : α → β)

theorem byKey_iff {a b : α} : byKey key a b = true ↔ key a ≤ key b := decide_eq_true_iff

theorem byKey_trans (a b c : α) (hab : byKey key a b = true) (hbc : byKey key b c = true) :
    byKey key a c = true := by
  rw [byKey_iff] at *
  exact hab.trans hbc

theorem byKey_total (a b : α) : (byKey key a b || byKey key b a) = true := by
  rw [Bool.or_eq_true, byKey_iff, byKey_iff]
  exact le_total (key a) (key b)

theorem pairwise_mergeSort_byKey (xs : List α) :
    (xs.mergeSort (byKey key)).Pairwise fun a b => key a ≤ key b :=
  (List.pairwise_mergeSort (byKey_trans key) (byKey_total key) xs).imp (byKey_iff key).1

/-- The elements of one key stand in the sorted list as they stood before. -/
theorem filter_mergeSort_byKey (xs : List α) (k : β) :
    (xs.mergeSort (byKey key)).filter (fun a => key a = k) = xs.filter fun a => key a = k := by
  have hclass : (xs.filter fun a => key a = k).Pairwise fun a b => byKey key a b = true := by
    refine List.pairwise_of_forall_mem_list fun a ha b hb => (byKey_iff key).2 (le_of_eq ?_)
    have ha : key a = k := by simpa using (List.mem_filter.1 ha).2
    have hb : key b = k := by simpa using (List.mem_filter.1 hb).2
    rw [ha, hb]
  -- The class is sorted as it stands, so sorting all keeps it as a part in the same order.
  have hsub := (List.sublist_mergeSort (byKey_trans key) (byKey_total key) hclass
    List.filter_sublist).filter fun a => key a = k
  have hlength := ((List.mergeSort_perm xs (byKey key)).filter fun a => key a = k).length_eq
  simp only [List.filter_filter, Bool.and_self] at hsub
  exact (hsub.eq_of_length hlength.symm).symm

/-- Of two sorted lists with the same classes, the first element of the second is in the first. -/
theorem key_le_of_filter_key {x y : α} {xs ys : List α}
    (hsorted : (x :: xs).Pairwise fun a b => key a ≤ key b)
    (h : ∀ k, (x :: xs).filter (fun a => key a = k) = (y :: ys).filter fun a => key a = k) :
    key x ≤ key y := by
  have hmem : y ∈ (x :: xs).filter fun a => key a = key y := by
    rw [h]
    simp
  rcases List.mem_cons.1 (List.mem_filter.1 hmem).1 with rfl | hy
  · exact le_rfl
  · exact (List.pairwise_cons.1 hsorted).1 y hy

/-- A sorted list is determined by its classes of equal keys. -/
theorem eq_of_filter_key : ∀ {xs ys : List α}, (xs.Pairwise fun a b => key a ≤ key b) →
    (ys.Pairwise fun a b => key a ≤ key b) →
    (∀ k, xs.filter (fun a => key a = k) = ys.filter fun a => key a = k) → xs = ys
  | [], [], _, _, _ => rfl
  | [], y :: ys, _, _, h => by simpa using h (key y)
  | x :: xs, [], _, _, h => by simpa using h (key x)
  | x :: xs, y :: ys, hx, hy, h => by
    have hkey : key x = key y :=
      le_antisymm (key_le_of_filter_key key hx h) (key_le_of_filter_key key hy fun k => (h k).symm)
    obtain rfl : x = y := by
      have hfirst := h (key x)
      rw [List.filter_cons_of_pos (by simp), List.filter_cons_of_pos (by simp [hkey])] at hfirst
      exact (List.cons.inj hfirst).1
    rw [eq_of_filter_key (List.pairwise_cons.1 hx).2 (List.pairwise_cons.1 hy).2 fun k => ?_]
    have hk := h k
    simp only [List.filter_cons] at hk
    split_ifs at hk
    · exact (List.cons.inj hk).2
    · exact hk

end Key

/-! ## Ranks of properties -/

/-- The place of the order of a property, if it has one and that is a number. -/
def PropertyShape.place? (p : PropertyShape) : Option (WithBot (WithTop ℚ)) :=
  p.order.bind Double.place?

theorem Double.place?_eq_none_iff {d : Double} : d.place? = none ↔ d = .nan := by
  rcases d with ⟨s, m, e⟩ | s | _ <;> simp [place?, value?]

namespace Shape

/-- Where a property stands: at the place of its order, or behind all places. -/
def rank (p : PropertyShape) : WithTop (WithBot (WithTop ℚ)) := p.place?.elim ⊤ (↑)

/-- The order of a property is a number, if it has one. -/
def Numbered (p : PropertyShape) : Prop := p.order ≠ some .nan

theorem comparable_iff {p : PropertyShape} : comparable p.order = true ↔ Numbered p := by
  unfold comparable Numbered
  rcases p.order with _ | _ | _ | _ <;> simp

variable {p q : PropertyShape}

/-- A property without an order is behind all places, any other one is at a place. -/
theorem Numbered.cases (h : Numbered p) :
    (p.order = none ∧ p.place? = none ∧ rank p = ⊤)
      ∨ ∃ d x, p.order = some d ∧ d.place? = some x ∧ p.place? = some x ∧ rank p = x := by
  rcases horder : p.order with _ | d
  · have hplace : p.place? = none := by simp [PropertyShape.place?, horder]
    exact .inl ⟨rfl, hplace, by simp [rank, hplace]⟩
  · have hd : d.place? ≠ none := fun hd => h (by rw [horder, Double.place?_eq_none_iff.1 hd])
    obtain ⟨x, hx⟩ := Option.ne_none_iff_exists'.1 hd
    have hplace : p.place? = some x := by simp [PropertyShape.place?, horder, hx]
    exact .inr ⟨d, x, rfl, hx, hplace, by simp [rank, hplace]⟩

/-- Properties compare as their ranks do. -/
theorem before_eq (hp : Numbered p) (hq : Numbered q) :
    before p.order q.order = decide (rank p < rank q) := by
  rcases hp.cases with ⟨hp, -, hrp⟩ | ⟨a, x, hp, hx, -, hrp⟩
  · simp [before, hp, hrp]
  · rcases hq.cases with ⟨hq, -, hrq⟩ | ⟨b, y, hq, hy, -, hrq⟩
    · simp [before, hp, hq, hrp, hrq]
    · rw [hp, hq, hrp, hrq, before, Double.compare?_eq, hx, hy]
      by_cases hlt : x < y
      · simp [hlt, (cmp_eq_lt_iff x y).2 hlt]
      · simp [hlt, cmp_eq_lt_iff]

theorem arranged_eq {properties : List PropertyShape} (h : ∀ p ∈ properties, Numbered p) :
    arranged properties = properties.mergeSort (byKey rank) := by
  have hall : (properties.all fun p => comparable p.order) = true :=
    List.all_eq_true.2 fun p hp => comparable_iff.2 (h p hp)
  have hsame : ∀ p ∈ properties, ∀ q ∈ properties,
      (!before q.order p.order) = byKey rank (id p) (id q) := by
    intro p hp q hq
    rw [before_eq (h q hq) (h p hp), byKey, ← decide_not]
    simp only [not_lt, id]
  have hmap := List.map_mergeSort hsame
  rw [List.map_id, List.map_id] at hmap
  rw [arranged, if_pos hall, hmap]

/-! ## Arranged properties -/

/-- What it means that properties are put in order. -/
structure Arranges (properties result : List PropertyShape) : Prop where
  perm : result.Perm properties
  ordered_first : result.Pairwise fun p q => p.order = none → q.order = none
  rising : result.Pairwise fun p q => ∀ x ∈ p.place?, ∀ y ∈ q.place?, x ≤ y
  equal_kept : ∀ x : WithBot (WithTop ℚ),
    result.filter (fun p => p.place? = some x) = properties.filter fun p => p.place? = some x
  unordered_kept :
    result.filter (fun p => p.order = none) = properties.filter fun p => p.order = none

theorem rank_le_iff (hp : Numbered p) (hq : Numbered q) :
    rank p ≤ rank q ↔
      (p.order = none → q.order = none) ∧ ∀ x ∈ p.place?, ∀ y ∈ q.place?, x ≤ y := by
  rcases hp.cases with ⟨hp, hpp, hrp⟩ | ⟨a, x, hp, -, hpp, hrp⟩
  · rcases hq.cases with ⟨hq, -, hrq⟩ | ⟨b, y, hq, -, -, hrq⟩
    · simp [hp, hq, hpp, hrp, hrq]
    · simp [hp, hq, hrp, hrq]
  · rcases hq.cases with ⟨hq, hqq, hrq⟩ | ⟨b, y, hq, -, hqq, hrq⟩
    · simp [hq, hqq, hrq]
    · simp [hp, hpp, hqq, hrp, hrq]

theorem rank_eq_coe_iff {x : WithBot (WithTop ℚ)} : rank p = x ↔ p.place? = some x := by
  rcases hplace : p.place? with _ | y <;> simp [rank, hplace]

theorem Numbered.rank_eq_top_iff (h : Numbered p) : rank p = ⊤ ↔ p.order = none := by
  rcases h.cases with ⟨hp, -, hrp⟩ | ⟨a, x, hp, -, -, hrp⟩
  · simp [hp, hrp]
  · simp [hp, hrp]

variable {properties result : List PropertyShape}

theorem filter_unordered (h : ∀ p ∈ properties, Numbered p) :
    properties.filter (fun p => p.order = none) = properties.filter fun p => rank p = ⊤ :=
  List.filter_congr fun p hp => decide_eq_decide.2 (h p hp).rank_eq_top_iff.symm

theorem pairwise_rank_arranged (h : ∀ p ∈ properties, Numbered p) :
    (arranged properties).Pairwise fun p q => rank p ≤ rank q := by
  rw [arranged_eq h]
  exact pairwise_mergeSort_byKey rank properties

theorem numbered_arranged (h : ∀ p ∈ properties, Numbered p) :
    ∀ p ∈ arranged properties, Numbered p := fun p hp =>
  h p ((arranged_perm properties).mem_iff.1 hp)

theorem arranges_arranged (h : ∀ p ∈ properties, Numbered p) :
    Arranges properties (arranged properties) := by
  have hnumbered := numbered_arranged h
  have hkept : ∀ k, (arranged properties).filter (fun p => rank p = k)
      = properties.filter fun p => rank p = k := by
    rw [arranged_eq h]
    exact filter_mergeSort_byKey rank properties
  have hpairwise := (pairwise_rank_arranged h).imp_of_mem fun hp hq =>
    (rank_le_iff (hnumbered _ hp) (hnumbered _ hq)).1
  refine ⟨arranged_perm properties, hpairwise.imp And.left, hpairwise.imp And.right,
    fun x => ?_, ?_⟩
  · simp only [← rank_eq_coe_iff]
    exact hkept x
  · rw [filter_unordered h, filter_unordered hnumbered]
    exact hkept ⊤

/-- Properties can be put in order in one way only. -/
theorem Arranges.eq_arranged (h : ∀ p ∈ properties, Numbered p) (hr : Arranges properties result) :
    result = arranged properties := by
  have hnumbered : ∀ p ∈ result, Numbered p := fun p hp => h p (hr.perm.mem_iff.1 hp)
  have ha := arranges_arranged h
  refine eq_of_filter_key rank ?_ (pairwise_rank_arranged h) fun k => ?_
  · exact (hr.ordered_first.and hr.rising).imp_of_mem fun hp hq =>
      (rank_le_iff (hnumbered _ hp) (hnumbered _ hq)).2
  · induction k using WithTop.recTopCoe with
    | top =>
      rw [← filter_unordered hnumbered, ← filter_unordered (numbered_arranged h),
        hr.unordered_kept, ha.unordered_kept]
    | coe x =>
      simp only [rank_eq_coe_iff]
      rw [hr.equal_kept, ha.equal_kept]

/-- If all orders are numbers, properties with an order come first, by rising order, and properties
of equal order or without one stay as they stand. One list alone is so, and it is kept as it is. -/
theorem arranged_stably (properties : List PropertyShape)
    (h : ∀ p ∈ properties, p.order ≠ some .nan) :
    (∀ result, Arranges properties result ↔ result = arranged properties)
      ∧ arranged (arranged properties) = arranged properties := by
  refine ⟨fun result => ⟨Arranges.eq_arranged h, ?_⟩, ?_⟩
  · rintro rfl
    exact arranges_arranged h
  · rw [arranged_eq (numbered_arranged h)]
    refine List.mergeSort_of_pairwise ((pairwise_rank_arranged h).imp ?_)
    exact (byKey_iff rank).2

/-- A property of a name and an order. -/
def field (path : String) (order : Option Double) : PropertyShape := { path, name := path, order }

/-- Fields with both zeros as their orders, a negative order and none. -/
def bookFields : List PropertyShape :=
  [field "note" none, field "title" (some (.zero false)), field "isbn" (some (.ofInt (-1))),
    field "year" none, field "author" (some (.zero true))]

/-- Both zeros are at one place, and minus one is before it. -/
theorem exists_place_zero : ∃ low mid : WithBot (WithTop ℚ),
    low < mid ∧ (Double.ofInt (-1)).place? = some low
      ∧ ∀ negative, (Double.zero negative).place? = some mid := by
  have hone : Double.ofInt (-1) = .finite true (2 ^ 52) (-52) := by decide +kernel
  have hvalue : (Double.ofInt (-1)).value? = some (-1) := by
    rw [hone, Double.value?, Option.some.injEq]
    norm_num
  have hzero : ∀ negative, (Double.zero negative).value? = some 0 := fun negative => by
    simp [Double.zero, Double.value?]
  refine ⟨((-1 : ℚ) : WithTop ℚ), ((0 : ℚ) : WithTop ℚ), strictMono_place (by norm_num), ?_, ?_⟩
  · rw [hone] at hvalue ⊢
    exact congrArg (Option.map fun x : ℚ => ((x : WithTop ℚ) : WithBot (WithTop ℚ))) hvalue
  · exact fun negative =>
      congrArg (Option.map fun x : ℚ => ((x : WithTop ℚ) : WithBot (WithTop ℚ))) (hzero negative)

/-- The two zeros keep their places, behind the negative order. -/
theorem bookFields_arranged :
    arranged bookFields = [field "isbn" (some (.ofInt (-1))), field "title" (some (.zero false)),
        field "author" (some (.zero true)), field "note" none, field "year" none]
      ∧ arranged (arranged bookFields) = arranged bookFields := by
  have hnumbered : ∀ p ∈ bookFields, p.order ≠ some .nan := by decide +kernel
  obtain ⟨hunique, hagain⟩ := arranged_stably bookFields hnumbered
  obtain ⟨low, mid, hlt, hminus, hzero⟩ := exists_place_zero
  refine ⟨((hunique _).1 ⟨by decide +kernel, by decide +kernel, ?_, fun x => ?_, ?_⟩).symm, hagain⟩
  · simp [field, PropertyShape.place?, hzero, hminus, hlt.le]
  · by_cases hx : mid = x
    · simp [bookFields, field, PropertyShape.place?, hzero, hminus, ← hx, hlt.ne]
    · simp [bookFields, field, PropertyShape.place?, hzero, hminus, hx, List.filter_cons]
  · decide +kernel

end Shape

end ShapeForge
