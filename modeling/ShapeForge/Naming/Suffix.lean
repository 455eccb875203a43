import ShapeForge.Naming.Identifier

/-!
# Numeric suffixes

A name can be told from others by a number behind it. The number is one more word of the name, so
the snake case of a suffixed name is a fixed text followed by the digits
(`toList_moduleNameFor_suffixed`): different suffixes give different names and different modules,
and a list of names blocks no more suffixes than it has members (`length_le_of_blocked`).
-/

namespace ShapeForge.Naming

def suffixed (name : String) (n : Nat) : String := name ++ "_" ++ n.repr

/-! ## Words of a suffixed name -/

theorem chunks_cons_of_not_alphanum {c : Char} (h : c.isAlphanum = false) (rest : List Char) :
    chunks (c :: rest) = chunks rest := by
  simp [chunks, h]

theorem chunks_singleton {c : Char} (h : c.isAlphanum = true) : chunks [c] = [[c]] := by
  simp [chunks, h]

theorem chunks_cons_stop {c d : Char} (hc : c.isAlphanum = true) (hd : d.isAlphanum = false)
    (rest : List Char) : chunks (c :: d :: rest) = [c] :: chunks rest := by
  conv => lhs; unfold chunks
  rw [if_pos hc, chunks_cons_of_not_alphanum hd]
  split
  · rename_i h1 h2
    simp only [List.cons.injEq] at h1
    rw [← h1.1, hd, h2]
    rfl
  · rfl

/-- A letter or digit before another one belongs to the same chunk. -/
theorem chunks_cons_join {c d : Char} (hc : c.isAlphanum = true) (hd : d.isAlphanum = true)
    {rest chunk : List Char} {more : List (List Char)} (h : chunks (d :: rest) = chunk :: more) :
    chunks (c :: d :: rest) = (c :: chunk) :: more := by
  conv => lhs; unfold chunks
  rw [if_pos hc, h]
  simp [hd]

theorem chunks_ne_nil {d : Char} (hd : d.isAlphanum = true) :
    ∀ rest : List Char, ∃ chunk more, chunks (d :: rest) = chunk :: more
  | [] => ⟨[d], [], chunks_singleton hd⟩
  | e :: rest => by
    by_cases he : e.isAlphanum = true
    · obtain ⟨chunk, more, h⟩ := chunks_ne_nil he rest
      exact ⟨d :: chunk, more, chunks_cons_join hd he h⟩
    · exact ⟨[d], _, chunks_cons_stop hd (by simpa using he) rest⟩

/-- A separator ends a chunk, so the chunks on its two sides are independent. -/
theorem chunks_append_separator {sep : Char} (hs : sep.isAlphanum = false) (ys : List Char) :
    ∀ xs : List Char, chunks (xs ++ sep :: ys) = chunks xs ++ chunks ys
  | [] => chunks_cons_of_not_alphanum hs ys
  | [c] => by
    by_cases hc : c.isAlphanum = true
    · simp [chunks_cons_stop hc hs, chunks_singleton hc]
    · have hc : c.isAlphanum = false := by simpa using hc
      simp [chunks_cons_of_not_alphanum hc, chunks_cons_of_not_alphanum hs]
      rfl
  | c :: d :: xs => by
    have ih := chunks_append_separator hs ys (d :: xs)
    by_cases hc : c.isAlphanum = true
    · by_cases hd : d.isAlphanum = true
      · obtain ⟨chunk, more, h⟩ := chunks_ne_nil hd xs
        rw [h] at ih
        rw [chunks_cons_join hc hd h]
        exact chunks_cons_join hc hd ih
      · have hd : d.isAlphanum = false := by simpa using hd
        rw [List.cons_append, chunks_cons_of_not_alphanum hd, chunks_cons_of_not_alphanum hd] at ih
        simp [chunks_cons_stop hc hd, ih]
    · have hc : c.isAlphanum = false := by simpa using hc
      rw [List.cons_append, chunks_cons_of_not_alphanum hc, chunks_cons_of_not_alphanum hc]
      exact ih

theorem isDigit_iff {c : Char} : c.isDigit = true ↔ 48 ≤ c.toNat ∧ c.toNat ≤ 57 := by
  simp [Char.isDigit, UInt32.le_iff_toNat_le]

theorem isUpper_iff {c : Char} : c.isUpper = true ↔ 65 ≤ c.toNat ∧ c.toNat ≤ 90 :=
  decide_eq_true_iff.trans (and_congr UInt32.le_iff_toNat_le UInt32.le_iff_toNat_le)

theorem isAlphanum_of_isDigit {c : Char} (h : c.isDigit = true) : c.isAlphanum = true := by
  simp [Char.isAlphanum, h]

theorem not_isUpper_of_isDigit {c : Char} (h : c.isDigit = true) : c.isUpper = false := by
  have hn : ¬ c.isUpper = true := by
    rw [isDigit_iff] at h
    rw [isUpper_iff]
    omega
  simpa using hn

theorem chunks_of_alphanum : ∀ cs : List Char, cs ≠ [] → (∀ c ∈ cs, c.isAlphanum = true) →
    chunks cs = [cs]
  | [], h, _ => absurd rfl h
  | [c], _, h => chunks_singleton (h c (by simp))
  | c :: d :: cs, _, h => by
    have ih := chunks_of_alphanum (d :: cs) (by simp) fun e he => h e (List.mem_cons_of_mem _ he)
    exact chunks_cons_join (h c (by simp)) (h d (by simp)) ih

theorem camelWords_of_not_upper : ∀ cs : List Char, cs ≠ [] → (∀ c ∈ cs, c.isUpper = false) →
    camelWords cs = [cs]
  | [], h, _ => absurd rfl h
  | [c], _, _ => rfl
  | c :: d :: cs, _, h => by
    have ih := camelWords_of_not_upper (d :: cs) (by simp) fun e he =>
      h e (List.mem_cons_of_mem _ he)
    rw [camelWords, ih]
    simp [startsWord, h d (by simp)]

/-- Letters and digits without a capital are one word. -/
theorem words_of_not_upper {cs : List Char} (hne : cs ≠ [])
    (h : ∀ c ∈ cs, c.isAlphanum = true ∧ c.isUpper = false) : words cs = [cs] := by
  rw [words, chunks_of_alphanum cs hne fun c hc => (h c hc).1, List.flatMap_singleton,
    camelWords_of_not_upper cs hne fun c hc => (h c hc).2]

theorem words_append_separator {sep : Char} (hs : sep.isAlphanum = false) (xs ys : List Char) :
    words (xs ++ sep :: ys) = words xs ++ words ys := by
  rw [words, chunks_append_separator hs, List.flatMap_append, ← words, ← words]

theorem isDigit_of_mem_toDigits {n : Nat} {c : Char} (h : c ∈ Nat.toDigits 10 n) :
    c.isDigit = true :=
  Nat.isDigit_of_mem_toDigits (by decide) (by decide) h

theorem toList_suffixed (name : String) (n : Nat) :
    (suffixed name n).toList = name.toList ++ '_' :: Nat.toDigits 10 n := by
  simp [suffixed]

/-- The digits of a suffix are the last word of the name. -/
theorem words_suffixed (name : String) (n : Nat) :
    words (suffixed name n).toList = words name.toList ++ [Nat.toDigits 10 n] := by
  rw [toList_suffixed, words_append_separator (by decide),
    words_of_not_upper Nat.toDigits_ne_nil fun d hd => ?_]
  have hdigit := isDigit_of_mem_toDigits hd
  exact ⟨isAlphanum_of_isDigit hdigit, not_isUpper_of_isDigit hdigit⟩

theorem toDigits_injective {m n : Nat} (h : Nat.toDigits 10 m = Nat.toDigits 10 n) : m = n := by
  have hv := congrArg (fun ds => Nat.ofDigitChars 10 ds 0) h
  simpa using hv

theorem suffixed_injective (name : String) : Function.Injective (suffixed name) := by
  intro m n h
  have ht := congrArg String.toList h
  rw [toList_suffixed, toList_suffixed, List.append_cancel_left_eq, List.cons.injEq] at ht
  exact toDigits_injective ht.2

/-! ## Modules of suffixed names -/

theorem intercalate_concat (sep w : List Char) :
    ∀ ws : List (List Char), ws ≠ [] →
      sep.intercalate (ws ++ [w]) = sep.intercalate ws ++ (sep ++ w)
  | [], h => absurd rfl h
  | [v], _ => by simp [List.intercalate_cons_cons]
  | v :: u :: ws, _ => by
    have ih := intercalate_concat sep w (u :: ws) (by simp)
    rw [List.cons_append] at ih
    simp [List.intercalate_cons_cons, ih]

theorem guardDigit_append {xs : List Char} (h : xs ≠ []) (ys : List Char) :
    guardDigit (xs ++ ys) = guardDigit xs ++ ys := by
  obtain ⟨c, rest, rfl⟩ := List.exists_cons_of_ne_nil h
  simp only [List.cons_append, guardDigit]
  split <;> rfl

theorem guardDigit_of_isDigit {c : Char} (h : c.isDigit = true) (rest : List Char) :
    guardDigit (c :: rest) = '_' :: c :: rest := by
  simp [guardDigit, h]

/-- The snake case of a name whose words join to a text that is not empty. -/
theorem toList_toSnakeCase {name : String}
    (h : ['_'].intercalate ((words name.toList).map (·.map Char.toLower)) ≠ []) :
    (toSnakeCase name).toList
      = guardDigit (['_'].intercalate ((words name.toList).map (·.map Char.toLower))) := by
  unfold toSnakeCase
  split
  · contradiction
  · simp

theorem toLower_of_isDigit {c : Char} (h : c.isDigit = true) : c.toLower = c := by
  refine dif_neg fun hupper => ?_
  rw [isDigit_iff] at h
  have hle := UInt32.le_iff_toNat_le.1 hupper.1
  simp at hle
  omega

theorem map_toLower_toDigits (n : Nat) :
    (Nat.toDigits 10 n).map Char.toLower = Nat.toDigits 10 n := by
  rw [List.map_congr_left fun c hc => toLower_of_isDigit (isDigit_of_mem_toDigits hc),
    List.map_id']

/-- The snake case of a suffixed name is the same for all suffixes, up to the digits. -/
theorem toSnakeCase_suffixed (name : String) :
    ∃ start : List Char, ∀ n,
      (toSnakeCase (suffixed name n)).toList = start ++ Nat.toDigits 10 n := by
  have hw : ∀ n, (words (suffixed name n).toList).map (·.map Char.toLower)
      = (words name.toList).map (·.map Char.toLower) ++ [Nat.toDigits 10 n] := by
    intro n
    rw [words_suffixed, List.map_append, List.map_singleton, map_toLower_toDigits]
  rcases hws : (words name.toList).map (·.map Char.toLower) with _ | ⟨w, ws⟩
  · refine ⟨['_'], fun n => ?_⟩
    obtain ⟨d, ds, hd⟩ := List.exists_cons_of_ne_nil (Nat.toDigits_ne_nil (n := n) (b := 10))
    have hj : ['_'].intercalate ((words (suffixed name n).toList).map (·.map Char.toLower))
        = d :: ds := by
      rw [hw, hws, List.nil_append, List.intercalate_singleton, hd]
    rw [toList_toSnakeCase (by simp [hj]), hj, hd]
    exact guardDigit_of_isDigit (isDigit_of_mem_toDigits (n := n) (by simp [hd])) ds
  · refine ⟨guardDigit (['_'].intercalate (w :: ws) ++ ['_']), fun n => ?_⟩
    have hj : ['_'].intercalate ((words (suffixed name n).toList).map (·.map Char.toLower))
        = ['_'].intercalate (w :: ws) ++ ['_'] ++ Nat.toDigits 10 n := by
      rw [hw, hws, intercalate_concat _ _ _ (by simp), List.append_assoc]
    rw [toList_toSnakeCase (by simp [hj]), hj, guardDigit_append (by simp)]

/-- No reserved word ends with a digit. -/
theorem not_isKeyword_of_digits {text : String} {start : List Char} {n : Nat}
    (h : text.toList = start ++ Nat.toDigits 10 n) : isKeyword text = false := by
  have hk : ∀ k ∈ keywords, (k.toList.getLast?.any Char.isDigit) = false := by decide
  refine Bool.eq_false_iff.2 fun hc => ?_
  have hm : text ∈ keywords := by simpa [isKeyword] using hc
  have hlast := hk text hm
  rw [h, List.getLast?_append, List.getLast?_eq_some_getLast Nat.toDigits_ne_nil,
    Option.some_or, Option.any_some, isDigit_of_mem_toDigits (List.getLast_mem _)] at hlast
  contradiction

/-- The module of a suffixed name is a fixed text followed by the digits of the suffix. -/
theorem toList_moduleNameFor_suffixed (name : String) :
    ∃ start : List Char, ∀ n,
      (moduleNameFor (suffixed name n)).toList = start ++ Nat.toDigits 10 n := by
  obtain ⟨start, hs⟩ := toSnakeCase_suffixed name
  refine ⟨start, fun n => ?_⟩
  simp only [moduleNameFor, not_isKeyword_of_digits (hs n)]
  exact hs n

theorem moduleNameFor_suffixed_injective (name : String) :
    Function.Injective fun n => moduleNameFor (suffixed name n) := by
  intro m n h
  obtain ⟨start, hs⟩ := toList_moduleNameFor_suffixed name
  have ht := congrArg String.toList h
  simp only [hs, List.append_cancel_left_eq] at ht
  exact toDigits_injective ht

/-! ## Blocked suffixes -/

/-- A list blocks at most one number for each of its members. -/
theorem length_le_of_mem {f : Nat → String} (hf : Function.Injective f) :
    ∀ {ks : List Nat} {names : List String}, ks.Nodup → (∀ k ∈ ks, f k ∈ names) →
      ks.length ≤ names.length
  | [], _, _, _ => Nat.zero_le _
  | k :: ks, names, hnodup, h => by
    have hk : f k ∈ names := h k (by simp)
    rw [List.nodup_cons] at hnodup
    have hrest : ∀ j ∈ ks, f j ∈ names.erase (f k) := fun j hj =>
      (List.mem_erase_of_ne fun he => hnodup.1 ((hf he : j = k) ▸ hj)).2 (h j (by simp [hj]))
    have hle := length_le_of_mem hf hnodup.2 hrest
    have hpos := List.length_pos_of_mem hk
    rw [List.length_erase_of_mem hk] at hle
    rw [List.length_cons]
    omega

/-- If each number is blocked through one of several ways to make a name of it, there are no more
numbers than names that block. -/
theorem length_le_of_blocked : ∀ {ways : List ((Nat → String) × List String)} {ks : List Nat},
    (∀ way ∈ ways, Function.Injective way.1) → ks.Nodup →
      (∀ k ∈ ks, ∃ way ∈ ways, way.1 k ∈ way.2) →
      ks.length ≤ ways.foldr (fun way n => way.2.length + n) 0
  | [], [], _, _, _ => Nat.zero_le _
  | [], k :: _, _, _, h => by
    obtain ⟨_, hmem, _⟩ := h k (by simp)
    exact absurd hmem (by simp)
  | way :: ways, ks, hf, hnodup, h => by
    let blocks (k : Nat) : Bool := way.2.contains (way.1 k)
    have hthis : (ks.filter blocks).length ≤ way.2.length :=
      length_le_of_mem (hf way (by simp)) (hnodup.filter _) fun k hk => by
        exact List.contains_iff_mem.1 (List.mem_filter.1 hk).2
    have hothers : ∀ k ∈ ks.filter (fun k => !blocks k), ∃ other ∈ ways, other.1 k ∈ other.2 := by
      intro k hk
      obtain ⟨hk, hblocks⟩ := List.mem_filter.1 hk
      obtain ⟨other, hother, hmem⟩ := h k hk
      rcases List.mem_cons.1 hother with rfl | hother
      · rw [show blocks k = true from List.contains_iff_mem.2 hmem] at hblocks
        cases hblocks
      · exact ⟨other, hother, hmem⟩
    have hrest := length_le_of_blocked (fun other hother => hf other (by simp [hother]))
      (hnodup.filter _) hothers
    have hsplit : ks.length
        = (ks.filter blocks).length + (ks.filter fun k => !blocks k).length := by
      rw [← List.countP_eq_length_filter, ← List.countP_eq_length_filter,
        List.length_eq_countP_add_countP blocks]
      simp only [Bool.not_eq_true, Bool.decide_eq_false]
    rw [List.foldr_cons]
    omega

end ShapeForge.Naming
