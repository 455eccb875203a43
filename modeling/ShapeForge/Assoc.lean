/-!
# Ordered associations

Lists of keys and values in the order in which the keys came. A new key goes to the end; writing
an old one changes its value in place.
-/

namespace ShapeForge.Assoc

/-- Writes the value of a key. -/
def put {α : Type} (key : String) (value : α) : List (String × α) → List (String × α)
  | [] => [(key, value)]
  | (k, v) :: rest => if k = key then (k, value) :: rest else (k, v) :: put key value rest

def get? {α : Type} (key : String) : List (String × α) → Option α
  | [] => none
  | (k, v) :: rest => if k = key then some v else get? key rest

def erase {α : Type} (key : String) (entries : List (String × α)) : List (String × α) :=
  entries.filter fun (k, _) => k ≠ key

theorem get?_put_self {α : Type} (key : String) (value : α) (entries : List (String × α)) :
    get? key (put key value entries) = some value := by
  induction entries with
  | nil => simp [put, get?]
  | cons e rest ih =>
    obtain ⟨k, v⟩ := e
    by_cases h : k = key <;> simp [put, get?, h, ih]

theorem get?_put_of_ne {α : Type} {key other : String} (h : other ≠ key) (value : α)
    (entries : List (String × α)) : get? other (put key value entries) = get? other entries := by
  induction entries with
  | nil => simp [put, get?, h.symm]
  | cons e rest ih =>
    obtain ⟨k, v⟩ := e
    by_cases hk : k = key
    · subst hk
      simp [put, get?, h.symm]
    · simp only [put, hk, if_false, get?]
      split <;> simp_all

theorem mem_of_get? {α : Type} {key : String} {value : α} :
    ∀ {entries : List (String × α)}, get? key entries = some value → (key, value) ∈ entries
  | [], h => by simp [get?] at h
  | (k, v) :: rest, h => by
    rw [get?] at h
    split at h
    · rename_i hk
      obtain rfl : v = value := by simpa using h
      simp [hk]
    · exact List.mem_cons_of_mem _ (mem_of_get? h)

/-- With distinct keys, an entry is what its key denotes. -/
theorem get?_of_mem {α : Type} {key : String} {value : α} :
    ∀ {entries : List (String × α)}, entries.Pairwise (·.1 ≠ ·.1) → (key, value) ∈ entries →
      get? key entries = some value
  | [], _, h => by simp at h
  | (k, v) :: rest, hp, h => by
    obtain ⟨hhead, htail⟩ := List.pairwise_cons.1 hp
    rw [get?]
    rcases List.mem_cons.1 h with h | h
    · simp only [Prod.mk.injEq] at h
      simp [h.1, h.2]
    · rw [if_neg (hhead _ h)]
      exact get?_of_mem htail h

theorem get?_eq_none_iff {α : Type} {key : String} :
    ∀ {entries : List (String × α)}, get? key entries = none ↔ key ∉ entries.map (·.1)
  | [] => by simp [get?]
  | (k, v) :: rest => by
    rw [get?]
    split
    · rename_i hk
      simp [hk]
    · rename_i hk
      rw [get?_eq_none_iff, List.map_cons, List.mem_cons, not_or]
      exact ⟨fun h => ⟨fun he => hk he.symm, h⟩, fun h => h.2⟩

theorem mem_put {α : Type} {key : String} {value : α} {e : String × α} :
    ∀ {entries : List (String × α)}, e ∈ put key value entries → e = (key, value) ∨ e ∈ entries
  | [], h => by simpa [put] using h
  | (k, v) :: rest, h => by
    rw [put] at h
    split at h
    · rename_i hk
      rcases List.mem_cons.1 h with h | h
      · exact .inl (by rw [h, hk])
      · exact .inr (List.mem_cons_of_mem _ h)
    · rcases List.mem_cons.1 h with h | h
      · exact .inr (by simp [h])
      · exact (mem_put h).imp_right (List.mem_cons_of_mem _)

theorem mem_keys_put {α : Type} (key other : String) (value : α) (entries : List (String × α)) :
    other ∈ (put key value entries).map (·.1) ↔ other = key ∨ other ∈ entries.map (·.1) := by
  induction entries with
  | nil => simp [put]
  | cons e rest ih =>
    obtain ⟨k, v⟩ := e
    by_cases h : k = key
    · subst h
      simp [put]
    · simp only [put, h, if_false, List.map_cons, List.mem_cons, ih, or_left_comm]

/-- A relation between the entries holds after a write if it holds between the new entry and the
entries of other keys. -/
theorem pairwise_put {α : Type} {R : String × α → String × α → Prop} {key : String} {value : α} :
    ∀ {entries : List (String × α)}, entries.Pairwise (·.1 ≠ ·.1) → entries.Pairwise R →
      (∀ e ∈ entries, e.1 ≠ key → R e (key, value) ∧ R (key, value) e) →
      (put key value entries).Pairwise R
  | [], _, _, _ => by simp [put]
  | (k, v) :: rest, hk, hR, hnew => by
    obtain ⟨hkhead, hktail⟩ := List.pairwise_cons.1 hk
    obtain ⟨hRhead, hRtail⟩ := List.pairwise_cons.1 hR
    rw [put]
    split
    · rename_i he
      subst he
      refine List.pairwise_cons.2 ⟨fun e h => ?_, hRtail⟩
      exact (hnew e (List.mem_cons_of_mem _ h) (hkhead e h).symm).2
    · rename_i he
      have ih := pairwise_put hktail hRtail fun e h => hnew e (List.mem_cons_of_mem _ h)
      refine List.pairwise_cons.2 ⟨fun e h => ?_, ih⟩
      rcases mem_put h with rfl | h
      · exact (hnew (k, v) List.mem_cons_self he).1
      · exact hRhead e h

end ShapeForge.Assoc
