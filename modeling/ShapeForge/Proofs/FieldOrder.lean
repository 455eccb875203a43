import ShapeForge.Json.Reader
import ShapeForge.Proofs.Outcome

/-!
# The order of fields

Associations of the same keys with related values, in whatever order (`Assoc.Alike`), answer every
look-up alike if no key comes twice (`Assoc.Alike.get?`). Two JSON values are the same up to the
order of fields if their objects are associations of this kind, at every depth (`Json.Reordered`).

No object that is read from a text has a key twice (`Json.keysDistinct_of_read`).
-/

namespace ShapeForge

namespace Assoc

variable {α β : Type} {R : α → β → Prop} {xs ys : List (String × α)} {zs : List (String × β)}

/-- The same keys with related values, in whatever order. -/
def Alike (R : α → β → Prop) (xs : List (String × α)) (zs : List (String × β)) : Prop :=
  ∃ ys, List.Forall₂ (fun a b => a.1 = b.1 ∧ R a.2 b.2) xs ys ∧ ys.Perm zs

theorem keys_eq_of_forall₂ {ys : List (String × β)}
    (h : List.Forall₂ (fun a b => a.1 = b.1 ∧ R a.2 b.2) xs ys) :
    xs.map (·.1) = ys.map (·.1) := by
  rw [← List.forall₂_eq_eq_eq, List.forall₂_map_left_iff, List.forall₂_map_right_iff]
  exact h.imp fun _ _ hab => hab.1

theorem Alike.keys_perm (h : Alike R xs zs) : (xs.map (·.1)).Perm (zs.map (·.1)) := by
  obtain ⟨ys, hvalues, hperm⟩ := h
  rw [keys_eq_of_forall₂ hvalues]
  exact hperm.map _

theorem Alike.distinct (h : Alike R xs zs) (hxs : xs.Pairwise (·.1 ≠ ·.1)) :
    zs.Pairwise (·.1 ≠ ·.1) := by
  have hnodup : (xs.map (·.1)).Nodup := List.pairwise_map.2 hxs
  exact List.pairwise_map.1 (h.keys_perm.nodup_iff.1 hnodup)

theorem get?_eq_some_iff (hxs : xs.Pairwise (·.1 ≠ ·.1)) {key : String} {a : α} :
    get? key xs = some a ↔ (key, a) ∈ xs :=
  ⟨mem_of_get?, get?_of_mem hxs⟩

theorem get?_perm (hxs : xs.Pairwise (·.1 ≠ ·.1)) (h : xs.Perm ys) (key : String) :
    get? key xs = get? key ys := by
  have hys : ys.Pairwise (·.1 ≠ ·.1) := (h.pairwise_iff fun hab => hab.symm).1 hxs
  refine Option.ext fun a => ?_
  rw [get?_eq_some_iff hxs, get?_eq_some_iff hys, h.mem_iff]

theorem get?_forall₂ {ys : List (String × β)} (key : String)
    (h : List.Forall₂ (fun a b => a.1 = b.1 ∧ R a.2 b.2) xs ys) :
    Option.Rel R (get? key xs) (get? key ys) := by
  induction h with
  | nil => exact .none
  | @cons a b xs ys hab _ ih =>
    obtain ⟨k, v⟩ := a
    obtain ⟨k', w⟩ := b
    obtain ⟨rfl, hvw⟩ := hab
    rw [get?, get?]
    split_ifs
    · exact .some hvw
    · exact ih

/-- Associations that are alike answer every look-up alike. -/
theorem Alike.get? (h : Alike R xs zs) (hxs : xs.Pairwise (·.1 ≠ ·.1)) (key : String) :
    Option.Rel R (get? key xs) (get? key zs) := by
  have hzs := h.distinct hxs
  obtain ⟨ys, hvalues, hperm⟩ := h
  rw [← get?_perm ((hperm.pairwise_iff fun hab => hab.symm).2 hzs) hperm]
  exact get?_forall₂ key hvalues

theorem pairwise_keys_put (key : String) (value : α) (hxs : xs.Pairwise (·.1 ≠ ·.1)) :
    (put key value xs).Pairwise (·.1 ≠ ·.1) :=
  pairwise_put hxs hxs fun _ _ he => ⟨he, he.symm⟩

end Assoc

namespace Json

/-- The same values up to the order of the fields of objects. -/
inductive Reordered : Json → Json → Prop
  | refl (v : Json) : Reordered v v
  | list {xs ys : List Json} : List.Forall₂ Reordered xs ys → Reordered (.list xs) (.list ys)
  | object {xs ys zs : List (String × Json)} : xs.map (·.1) = ys.map (·.1) →
    List.Forall₂ Reordered (xs.map (·.2)) (ys.map (·.2)) → ys.Perm zs →
    Reordered (.object xs) (.object zs)

namespace Reordered

variable {w : Json}

theorem of_text {s : String} (h : Reordered (.text s) w) : w = .text s := by
  cases h
  rfl

theorem of_null (h : Reordered .null w) : w = .null := by
  cases h
  rfl

theorem of_list {xs : List Json} (h : Reordered (.list xs) w) :
    ∃ ys, w = .list ys ∧ List.Forall₂ Reordered xs ys := by
  cases h with
  | refl => exact ⟨xs, rfl, List.forall₂_same.2 fun v _ => .refl v⟩
  | list h => exact ⟨_, rfl, h⟩

theorem forall₂_fields : ∀ {xs ys : List (String × Json)}, xs.map (·.1) = ys.map (·.1) →
    List.Forall₂ Reordered (xs.map (·.2)) (ys.map (·.2)) →
    List.Forall₂ (fun a b => a.1 = b.1 ∧ Reordered a.2 b.2) xs ys
  | [], [], _, _ => .nil
  | [], _ :: _, hkeys, _ => by simp at hkeys
  | _ :: _, [], hkeys, _ => by simp at hkeys
  | a :: xs, b :: ys, hkeys, hvalues => by
    simp only [List.map_cons, List.cons.injEq] at hkeys
    simp only [List.map_cons, List.forall₂_cons] at hvalues
    exact .cons ⟨hkeys.1, hvalues.1⟩ (forall₂_fields hkeys.2 hvalues.2)

theorem of_object {xs : List (String × Json)} (h : Reordered (.object xs) w) :
    ∃ zs, w = .object zs ∧ Assoc.Alike Reordered xs zs := by
  cases h with
  | refl => exact ⟨xs, rfl, xs, List.forall₂_same.2 fun a _ => ⟨rfl, .refl a.2⟩, .refl xs⟩
  | object hkeys hvalues hperm => exact ⟨_, rfl, _, forall₂_fields hkeys hvalues, hperm⟩

end Reordered

/-- No object has a key twice, at any depth. -/
inductive KeysDistinct : Json → Prop
  | null : KeysDistinct .null
  | bool (b : Bool) : KeysDistinct (.bool b)
  | int (i : Int) : KeysDistinct (.int i)
  | double (d : Double) : KeysDistinct (.double d)
  | text (s : String) : KeysDistinct (.text s)
  | list {items : List Json} : (∀ v ∈ items, KeysDistinct v) → KeysDistinct (.list items)
  | object {fields : List (String × Json)} : fields.Pairwise (·.1 ≠ ·.1) →
    (∀ e ∈ fields, KeysDistinct e.2) → KeysDistinct (.object fields)

/-! ## Reading -/

theorem keysDistinct_of_word? {cs rest : List Char} {v : Json} (h : word? cs = some (v, rest)) :
    v.KeysDistinct := by
  obtain ⟨entry, hentry, hword⟩ := List.exists_of_findSome?_eq_some h
  obtain ⟨rest', -, heq⟩ := Option.map_eq_some_iff.1 hword
  obtain ⟨rfl, -⟩ := Prod.mk.inj heq
  simp only [wordValues, List.mem_cons, List.not_mem_nil, or_false] at hentry
  rcases hentry with rfl | rfl | rfl | rfl | rfl | rfl <;> constructor

theorem keysDistinct_of_readNumber {cs rest : List Char} {v : Json}
    (h : readNumber cs = .ok (v, rest)) : v.KeysDistinct := by
  unfold readNumber at h
  dsimp only at h
  split_ifs at h
  · obtain ⟨rfl, -⟩ := Prod.mk.inj (Except.ok.inj h)
    exact .int _
  · obtain ⟨rfl, -⟩ := Prod.mk.inj (Except.ok.inj h)
    exact .double _

theorem KeysDistinct.put {fields : List (String × Json)} {v : Json} (key : String)
    (hfields : (Json.object fields).KeysDistinct) (hv : v.KeysDistinct) :
    (Json.object (Assoc.put key v fields)).KeysDistinct := by
  cases hfields with
  | object hkeys hvalues =>
    refine .object (Assoc.pairwise_keys_put key v hkeys) fun e he => ?_
    rcases Assoc.mem_put he with rfl | he
    · exact hv
    · exact hvalues e he

/-- What is read with some fuel has no key twice. -/
structure ReadsDistinct (fuel : ℕ) : Prop where
  value : ∀ {depth cs v rest}, readValue fuel depth cs = .ok (v, rest) → v.KeysDistinct
  items : ∀ {depth cs items rest}, readItems fuel depth cs = .ok (items, rest) →
    ∀ v ∈ items, v.KeysDistinct
  fields : ∀ {depth before cs fields rest}, (Json.object before).KeysDistinct →
    readFields fuel depth before cs = .ok (fields, rest) → (Json.object fields).KeysDistinct

namespace ReadsDistinct

variable {fuel depth : ℕ} {cs rest : List Char}

theorem value_succ (h : ReadsDistinct fuel) {v : Json}
    (hread : readValue (fuel + 1) depth cs = .ok (v, rest)) : v.KeysDistinct := by
  unfold readValue at hread
  split at hread
  · obtain ⟨read, -, heq⟩ := map_ok_iff.1 hread
    obtain ⟨rfl, -⟩ := Prod.mk.inj heq
    exact .text _
  · split at hread
    · cases hread
    · split at hread
      · obtain ⟨rfl, -⟩ := Prod.mk.inj (Except.ok.inj hread)
        exact .list (by simp)
      · obtain ⟨read, hitems, heq⟩ := map_ok_iff.1 hread
        obtain ⟨rfl, -⟩ := Prod.mk.inj heq
        exact .list (h.items hitems)
  · split at hread
    · cases hread
    · split at hread
      · obtain ⟨rfl, -⟩ := Prod.mk.inj (Except.ok.inj hread)
        exact .object .nil (by simp)
      · obtain ⟨read, hfields, heq⟩ := map_ok_iff.1 hread
        obtain ⟨rfl, -⟩ := Prod.mk.inj heq
        exact h.fields (.object .nil (by simp)) hfields
  · split at hread
    · rename_i found hword
      exact keysDistinct_of_word? (hword.trans (congrArg some (Except.ok.inj hread)))
    · exact keysDistinct_of_readNumber hread

theorem items_succ (h : ReadsDistinct fuel) {items : List Json}
    (hread : readItems (fuel + 1) depth cs = .ok (items, rest)) : ∀ v ∈ items, v.KeysDistinct := by
  unfold readItems at hread
  obtain ⟨⟨item, after⟩, hitem, hread⟩ := bind_ok_iff.1 hread
  dsimp only at hread
  split at hread
  · obtain ⟨read, hmore, heq⟩ := bind_ok_iff.1 hread
    obtain ⟨rfl, -⟩ := Prod.mk.inj (Except.ok.inj heq)
    exact List.forall_mem_cons.2 ⟨h.value hitem, h.items hmore⟩
  · obtain ⟨rfl, -⟩ := Prod.mk.inj (Except.ok.inj hread)
    exact List.forall_mem_singleton.2 (h.value hitem)
  · cases hread

theorem fields_succ (h : ReadsDistinct fuel) {before fields : List (String × Json)}
    (hbefore : (Json.object before).KeysDistinct)
    (hread : readFields (fuel + 1) depth before cs = .ok (fields, rest)) :
    (Json.object fields).KeysDistinct := by
  unfold readFields at hread
  split at hread
  · obtain ⟨key, -, hread⟩ := bind_ok_iff.1 hread
    dsimp only at hread
    split at hread
    · obtain ⟨⟨value, after⟩, hvalue, hread⟩ := bind_ok_iff.1 hread
      dsimp only at hread
      split at hread
      · exact h.fields (hbefore.put _ (h.value hvalue)) hread
      · obtain ⟨rfl, -⟩ := Prod.mk.inj (Except.ok.inj hread)
        exact hbefore.put _ (h.value hvalue)
      · cases hread
    · cases hread
  · cases hread

end ReadsDistinct

theorem readsDistinct : ∀ fuel : ℕ, ReadsDistinct fuel
  | 0 => ⟨by simp [readValue], by simp [readItems], by simp [readFields]⟩
  | fuel + 1 =>
    have h := readsDistinct fuel
    ⟨h.value_succ, h.items_succ, h.fields_succ⟩

theorem keysDistinct_of_read {depth : ℕ} {text : String} {v : Json}
    (h : read depth text = .ok v) : v.KeysDistinct := by
  unfold read at h
  obtain ⟨⟨value, rest⟩, hread, h⟩ := bind_ok_iff.1 h
  dsimp only at h
  split_ifs at h
  obtain rfl := Except.ok.inj h
  exact (readsDistinct _).value hread

end Json

end ShapeForge
