import ShapeForge.Proofs.Identifier

/-!
# Claimed names are free

The search for a suffix is cut off after as many steps as there are taken names and exceptions of
the condition. Different suffixes give different names, so a suffix that is free and meets the
condition comes before the cut (`exists_admitted_suffix`), and a claim always gets a name that can
be claimed (`admits_choose`).
-/

namespace ShapeForge.Naming

/-- A suffixed name is none of those that end with something else than a digit. -/
theorem suffixed_not_mem {names : List String}
    (h : ∀ x ∈ names, x.toList.getLast?.any Char.isDigit = false) (name : String) (n : Nat) :
    suffixed name n ∉ names := by
  intro hmem
  have hlast := h _ hmem
  rw [toList_suffixed, List.append_cons, List.getLast?_append_of_ne_nil _ Nat.toDigits_ne_nil,
    List.getLast?_eq_some_getLast Nat.toDigits_ne_nil, Option.any_some,
    isDigit_of_mem_toDigits (List.getLast_mem _)] at hlast
  contradiction

/-! ## The search for a suffix -/

/-- If some suffix within the cut passes, the search ends at one that passes, and none before it
does. -/
theorem leastSuffix_spec (ok : String → Bool) (name : String) :
    ∀ fuel n : ℕ, (∃ k, n ≤ k ∧ k < n + fuel ∧ ok (suffixed name k) = true) →
      ok (suffixed name (leastSuffix ok name fuel n)) = true
        ∧ n ≤ leastSuffix ok name fuel n
        ∧ ∀ k, n ≤ k → k < leastSuffix ok name fuel n → ok (suffixed name k) = false
  | 0, n, ⟨k, h1, h2, _⟩ => by omega
  | fuel + 1, n, ⟨k, h1, h2, hk⟩ => by
    rw [leastSuffix]
    split_ifs with hn
    · exact ⟨hn, le_rfl, fun j h3 h4 => by omega⟩
    · have hne : n ≠ k := fun he => hn (he ▸ hk)
      obtain ⟨h3, h4, h5⟩ := leastSuffix_spec ok name fuel (n + 1) ⟨k, by omega, by omega, hk⟩
      refine ⟨h3, by omega, fun j h6 h7 => ?_⟩
      rcases Nat.eq_or_lt_of_le h6 with rfl | h6
      · simpa using hn
      · exact h5 j h6 h7

namespace Allocator

variable (a : Allocator)

@[simp]
theorem mem_taken_reserve {name x : String} :
    x ∈ (a.reserve name).taken ↔ x = name ∨ x ∈ a.taken := by
  unfold reserve
  split_ifs with h
  · have hm : name ∈ a.taken := by simpa using h
    exact ⟨.inr, fun hx => hx.elim (fun he => he ▸ hm) id⟩
  · simp

theorem free_iff {names : List String} : a.free names = true ↔ ∀ n ∈ names, n ∉ a.taken := by
  simp [free]

theorem admits_iff {condition : Condition} {name : String} :
    a.admits condition name = true ↔ name ∉ a.taken ∧ condition.holds name = true := by
  simp [admits, free_iff]

/-- Among as many suffixes as there are taken names and exceptions, and one more, one can be
claimed. -/
theorem exists_admitted_suffix (name : String) (condition : Condition) :
    ∃ k, 2 ≤ k ∧ k < 2 + (a.taken.length + condition.exceptions + 1)
      ∧ a.admits condition (suffixed name k) = true := by
  by_contra hnone
  push Not at hnone
  set ks := List.range' 2 (a.taken.length + condition.exceptions + 1) with hks
  have hnodup : ks.Nodup := List.nodup_range' ..
  -- Each number is blocked by a taken name or refused by the condition.
  let isTaken (k : ℕ) : Bool := a.taken.contains (suffixed name k)
  have htaken : (ks.filter isTaken).length ≤ a.taken.length :=
    length_le_of_mem (suffixed_injective name) (hnodup.filter _) fun k hk => by
      simpa [isTaken] using (List.mem_filter.1 hk).2
  have hrefused : (ks.filter fun k => !isTaken k).length ≤ condition.exceptions := by
    refine condition.bounded name _ (hnodup.filter _) fun k hk => ?_
    obtain ⟨hk, hfree⟩ := List.mem_filter.1 hk
    have hrange := List.mem_range'_1.1 hk
    have hno := hnone k hrange.1 hrange.2
    rw [Ne, admits_iff, not_and, Bool.not_eq_true] at hno
    exact hno (by simpa [isTaken] using hfree)
  have hlength := List.length_eq_length_filter_add isTaken (l := ks)
  rw [hks, List.length_range', ← hks] at hlength
  omega

/-- A claim gets the plain name or a suffixed one. -/
theorem choose_cases (name : String) (condition : Condition) :
    a.choose name condition = name ∨ ∃ n, a.choose name condition = suffixed name n := by
  unfold choose
  split_ifs
  · exact .inl rfl
  · exact .inr ⟨_, rfl⟩

theorem choose_of_admits {condition : Condition} {name : String}
    (h : a.admits condition name = true) : a.choose name condition = name := by
  simp [choose, h]

theorem claim_of_admits {condition : Condition} {name : String}
    (h : a.admits condition name = true) (origin : String) :
    a.claim name origin condition = (name, a.reserve name, []) := by
  simp [claim, choose_of_admits, h]

/-- The name that a claim gets can be claimed. -/
theorem admits_choose (name : String) (condition : Condition) :
    a.admits condition (a.choose name condition) = true := by
  unfold choose
  split_ifs with hn
  · exact hn
  · exact (leastSuffix_spec _ name _ 2 (a.exists_admitted_suffix name condition)).1

end Allocator

end ShapeForge.Naming
