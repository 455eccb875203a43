import Mathlib
import ShapeForge.Model.Names

/-!
# The texts of identifiers

Module names consist of small letters, digits and underscores (`isSnake_of_mem_moduleNameFor`) and
start with a letter, or with an underscore before a digit (`moduleNameFor_head`).
-/

namespace ShapeForge.Naming

/-! ## The characters of module names -/

theorem isLower_iff {c : Char} : c.isLower = true ↔ 97 ≤ c.toNat ∧ c.toNat ≤ 122 := by
  simp [Char.isLower, UInt32.le_iff_toNat_le]

theorem not_isLower_of_isDigit {c : Char} (h : c.isDigit = true) : c.isLower = false := by
  have hn : ¬ c.isLower = true := by
    rw [isDigit_iff] at h
    rw [isLower_iff]
    omega
  simpa using hn

theorem toUpper_of_isDigit {c : Char} (h : c.isDigit = true) : c.toUpper = c :=
  Char.toUpper_eq_of_not_isLower (by simp [not_isLower_of_isDigit h])

/-- The characters of snake case. -/
def isSnake (c : Char) : Bool := c.isLower || c.isDigit || c == '_'

/-- The snake case of a name without words. -/
theorem toSnakeCase_of_words_nil {name : String} (h : words name.toList = []) :
    toSnakeCase name = "value" := by
  unfold toSnakeCase
  rw [h]
  rfl

theorem mem_chunks : ∀ (cs : List Char), ∀ chunk ∈ chunks cs,
    chunk ≠ [] ∧ ∀ c ∈ chunk, c.isAlphanum = true
  | [], chunk, h => by simp [chunks] at h
  | [c], chunk, h => by
    by_cases hc : c.isAlphanum = true
    · rw [chunks_singleton hc, List.mem_singleton] at h
      subst h
      simpa using hc
    · rw [chunks_cons_of_not_alphanum (by simpa using hc)] at h
      exact mem_chunks _ chunk h
  | c :: d :: cs, chunk, h => by
    by_cases hc : c.isAlphanum = true
    · by_cases hd : d.isAlphanum = true
      · obtain ⟨first, more, hf⟩ := chunks_ne_nil hd cs
        rw [chunks_cons_join hc hd hf, List.mem_cons] at h
        rcases h with rfl | h
        · obtain ⟨-, ih⟩ := mem_chunks (d :: cs) first (by simp [hf])
          refine ⟨by simp, fun e he => ?_⟩
          rcases List.mem_cons.1 he with rfl | he
          · exact hc
          · exact ih e he
        · exact mem_chunks (d :: cs) chunk (by simp [hf, h])
      · rw [chunks_cons_stop hc (by simpa using hd), List.mem_cons] at h
        rcases h with rfl | h
        · simpa using hc
        · exact mem_chunks _ chunk h
    · rw [chunks_cons_of_not_alphanum (by simpa using hc)] at h
      exact mem_chunks _ chunk h

theorem mem_camelWords : ∀ (cs : List Char), ∀ w ∈ camelWords cs, w ≠ [] ∧ ∀ c ∈ w, c ∈ cs
  | [], w, h => by simp [camelWords] at h
  | [c], w, h => by
    simp only [camelWords, List.mem_singleton] at h
    subst h
    simp
  | b :: c :: rest, w, h => by
    rw [camelWords] at h
    split at h
    · rcases List.mem_cons.1 h with rfl | h
      · simp
      · obtain ⟨hne, hw⟩ := mem_camelWords _ w h
        exact ⟨hne, fun d hd => List.mem_cons_of_mem _ (hw d hd)⟩
    · split at h
      · rw [List.mem_singleton] at h
        subst h
        simp
      · rename_i word words hcw
        rcases List.mem_cons.1 h with rfl | h
        · obtain ⟨-, hw⟩ := mem_camelWords (c :: rest) word (by simp [hcw])
          refine ⟨by simp, fun d hd => ?_⟩
          rcases List.mem_cons.1 hd with rfl | hd
          · exact List.mem_cons_self
          · exact List.mem_cons_of_mem _ (hw d hd)
        · obtain ⟨hne, hw⟩ := mem_camelWords (c :: rest) w (by simp [hcw, h])
          exact ⟨hne, fun d hd => List.mem_cons_of_mem _ (hw d hd)⟩

theorem mem_words {cs w : List Char} (h : w ∈ words cs) :
    w ≠ [] ∧ ∀ c ∈ w, c.isAlphanum = true := by
  obtain ⟨chunk, hchunk, hw⟩ := List.mem_flatMap.1 h
  obtain ⟨hne, hsub⟩ := mem_camelWords chunk w hw
  exact ⟨hne, fun c hc => (mem_chunks cs chunk hchunk).2 c (hsub c hc)⟩

/-- The characters of the words that snake case joins. -/
theorem mem_snakeWords {cs w : List Char} (h : w ∈ (words cs).map (·.map Char.toLower)) :
    w ≠ [] ∧ ∀ c ∈ w, c.isLower = true ∨ c.isDigit = true := by
  obtain ⟨v, hv, rfl⟩ := List.mem_map.1 h
  obtain ⟨hne, hal⟩ := mem_words hv
  refine ⟨by simpa using hne, fun c hc => ?_⟩
  obtain ⟨d, hd, rfl⟩ := List.mem_map.1 hc
  have ha := hal d hd
  rw [Char.isAlphanum, Bool.or_eq_true] at ha
  rcases ha with ha | ha
  · exact .inl (by rw [Char.isLower_toLower_eq_isAlpha, ha])
  · exact .inr (by rw [toLower_of_isDigit ha, ha])

theorem mem_intercalate {α : Type} {sep : List α} {c : α} :
    ∀ {ws : List (List α)}, c ∈ sep.intercalate ws → c ∈ sep ∨ ∃ w ∈ ws, c ∈ w
  | [], h => by simp at h
  | [w], h => .inr ⟨w, by simp, by simpa using h⟩
  | w :: v :: ws, h => by
    rw [List.intercalate_cons_cons] at h
    rcases List.mem_append.1 h with h | h
    · rcases List.mem_append.1 h with h | h
      · exact .inr ⟨w, by simp, h⟩
      · exact .inl h
    · rcases mem_intercalate h with h | ⟨u, hu, hc⟩
      · exact .inl h
      · exact .inr ⟨u, List.mem_cons_of_mem _ hu, hc⟩

/-- What a filter keeps of joined texts is what it keeps of the texts, if it drops the separator. -/
theorem filter_intercalate {α : Type} {p : α → Bool} {sep : List α} (h : sep.filter p = []) :
    ∀ ws : List (List α), (sep.intercalate ws).filter p = ws.flatten.filter p
  | [] => rfl
  | [w] => by simp
  | w :: v :: ws => by
    rw [List.intercalate_cons_cons, List.filter_append, List.filter_append, h, List.append_nil,
      filter_intercalate h (v :: ws), ← List.filter_append]
    rfl

theorem mem_guardDigit {c : Char} : ∀ {cs : List Char}, c ∈ guardDigit cs → c = '_' ∨ c ∈ cs
  | [], h => by simp [guardDigit] at h
  | d :: cs, h => by
    rw [guardDigit] at h
    split at h
    · exact List.mem_cons.1 h
    · exact .inr h

theorem isSnake_of_mem_toSnakeCase {name : String} {c : Char} (h : c ∈ (toSnakeCase name).toList) :
    isSnake c = true := by
  by_cases hj : ['_'].intercalate ((words name.toList).map (·.map Char.toLower)) = []
  · have hv : toSnakeCase name = "value" := by
      unfold toSnakeCase
      rw [hj]
    have hs : "value".toList.all isSnake = true := by decide
    rw [hv] at h
    exact List.all_eq_true.1 hs c h
  · rw [toList_toSnakeCase hj] at h
    rcases mem_guardDigit h with rfl | h
    · rfl
    rcases mem_intercalate h with h | ⟨w, hw, hc⟩
    · rw [List.mem_singleton] at h
      subst h
      rfl
    · rcases (mem_snakeWords hw).2 c hc with hl | hd
      · simp [isSnake, hl]
      · simp [isSnake, hd]

theorem moduleNameFor_eq (name : String) :
    moduleNameFor name = toSnakeCase name ∨ moduleNameFor name = toSnakeCase name ++ "_" := by
  simp only [moduleNameFor]
  split
  · exact .inr rfl
  · exact .inl rfl

theorem isSnake_of_mem_moduleNameFor {name : String} {c : Char}
    (h : c ∈ (moduleNameFor name).toList) : isSnake c = true := by
  rcases moduleNameFor_eq name with he | he <;> rw [he] at h
  · exact isSnake_of_mem_toSnakeCase h
  · rw [String.toList_append, List.mem_append] at h
    rcases h with h | h
    · exact isSnake_of_mem_toSnakeCase h
    · rw [List.mem_singleton.1 h]
      rfl

/-- Snake case starts with a small letter, or with an underscore and a digit. -/
theorem toSnakeCase_head (name : String) :
    ∃ c rest, (toSnakeCase name).toList = c :: rest ∧
      (c.isLower = true ∨ c = '_' ∧ ∃ d more, rest = d :: more ∧ d.isDigit = true) := by
  rcases hws : (words name.toList).map (·.map Char.toLower) with _ | ⟨w, ws⟩
  · have hv := toSnakeCase_of_words_nil (List.map_eq_nil_iff.1 hws)
    exact ⟨'v', ['a', 'l', 'u', 'e'], by rw [hv]; decide, .inl (by decide)⟩
  · have hm : w ∈ (words name.toList).map (·.map Char.toLower) := by simp [hws]
    obtain ⟨hne, hw⟩ := mem_snakeWords hm
    obtain ⟨c, more, rfl⟩ := List.exists_cons_of_ne_nil hne
    have hj : ∃ tail, ['_'].intercalate ((words name.toList).map (·.map Char.toLower))
        = c :: tail := by
      rw [hws]
      rcases ws with _ | ⟨v, ws⟩
      · exact ⟨more, by simp⟩
      · exact ⟨_, by rw [List.intercalate_cons_cons]; rfl⟩
    obtain ⟨tail, hj⟩ := hj
    rw [toList_toSnakeCase (by simp [hj]), hj]
    rcases hw c (by simp) with hl | hd
    · refine ⟨c, tail, ?_, .inl hl⟩
      have hnd : ¬ c.isDigit = true := fun hd => by simp [not_isLower_of_isDigit hd] at hl
      simp [guardDigit, hnd]
    · exact ⟨'_', c :: tail, guardDigit_of_isDigit hd tail, .inr ⟨rfl, c, tail, rfl, hd⟩⟩

theorem moduleNameFor_head (name : String) :
    ∃ c rest, (moduleNameFor name).toList = c :: rest ∧
      (c.isLower = true ∨ ∃ d more, rest = d :: more ∧ d.isDigit = true) := by
  obtain ⟨c, rest, hs, h⟩ := toSnakeCase_head name
  rcases moduleNameFor_eq name with he | he
  · exact ⟨c, rest, by rw [he, hs], h.imp_right And.right⟩
  · refine ⟨c, rest ++ ['_'], by rw [he, String.toList_append, hs]; rfl, ?_⟩
    rcases h with h | ⟨-, d, more, rfl, hd⟩
    · exact .inl h
    · exact .inr ⟨d, more ++ ['_'], rfl, hd⟩

end ShapeForge.Naming
