import ShapeForge.Proofs.WordNames

/-!
# Normal forms of names

Cutting a name into words keeps all letters and digits (`flatten_words`). A cut stands before a
capital, so of the words of a chunk only the first can start with a small letter
(`camelWords_cons`): whatever the words of a Pascal case are, capitalizing them changes nothing.
The words of a snake case are those that were joined (`words_toSnakeCase`).

An underscore behind a name is no part of a word, so keeping a name away from reserved ones
(`setApart`) does not change the snake case.
-/

namespace ShapeForge.Naming

/-! ## Letters and digits of words -/

theorem flatten_chunks : ∀ cs : List Char, (chunks cs).flatten = cs.filter Char.isAlphanum
  | [] => rfl
  | [c] => by
    by_cases hc : c.isAlphanum = true
    · simp [chunks_singleton hc, hc]
    · simp [chunks, hc]
  | c :: d :: cs => by
    have ih := flatten_chunks (d :: cs)
    by_cases hc : c.isAlphanum = true
    · rw [List.filter_cons_of_pos hc, ← ih]
      by_cases hd : d.isAlphanum = true
      · obtain ⟨chunk, more, h⟩ := chunks_ne_nil hd cs
        rw [chunks_cons_join hc hd h, h]
        rfl
      · have hd : d.isAlphanum = false := by simpa using hd
        rw [chunks_cons_stop hc hd, chunks_cons_of_not_alphanum hd]
        rfl
    · rw [List.filter_cons_of_neg hc, ← ih, chunks_cons_of_not_alphanum (by simpa using hc)]

theorem toUpper_of_isUpper {c : Char} (h : c.isUpper = true) : c.toUpper = c := by
  refine Char.toUpper_eq_of_not_isLower fun hlower => ?_
  rw [isUpper_iff] at h
  rw [isLower_iff] at hlower
  omega

/-- The words of a chunk make it up, and all but the first are capitalized as they stand. -/
theorem camelWords_cons : ∀ (b : Char) (rest : List Char), ∃ w ws,
    camelWords (b :: rest) = (b :: w) :: ws ∧ w ++ ws.flatten = rest
      ∧ ws.flatMap capitalize = ws.flatten
  | b, [] => ⟨[], [], rfl, rfl, rfl⟩
  | b, c :: rest => by
    obtain ⟨w, ws, hwords, hrest, hcapital⟩ := camelWords_cons c rest
    rw [camelWords, hwords]
    by_cases h : startsWord b c rest.head? = true
    · -- A word is cut off, and the next one starts with a capital.
      have hc : c.isUpper = true := by
        rw [startsWord, Bool.and_eq_true] at h
        exact h.1
      refine ⟨[], (c :: w) :: ws, if_pos h, by simp [hrest], ?_⟩
      simp [capitalize, toUpper_of_isUpper hc, hcapital]
    · exact ⟨c :: w, ws, if_neg h, by simp [hrest], hcapital⟩

theorem flatten_camelWords (cs : List Char) : (camelWords cs).flatten = cs := by
  rcases cs with _ | ⟨b, rest⟩
  · rfl
  · obtain ⟨w, ws, hwords, hrest, -⟩ := camelWords_cons b rest
    rw [hwords, List.flatten_cons, List.cons_append, hrest]

/-- The words of a name have its letters and digits, in order. -/
theorem flatten_words (cs : List Char) : (words cs).flatten = cs.filter Char.isAlphanum := by
  rw [words, List.flatMap_def, List.flatten_flatten, List.map_map, ← flatten_chunks]
  simp [Function.comp_def, flatten_camelWords]

theorem words_eq_nil_iff {cs : List Char} :
    words cs = [] ↔ ∀ c ∈ cs, c.isAlphanum = false := by
  have hwords : words cs = [] ↔ (words cs).flatten = [] := by
    refine ⟨fun h => by rw [h]; rfl, fun h => ?_⟩
    by_contra hne
    obtain ⟨w, ws, hw⟩ := List.exists_cons_of_ne_nil hne
    have hmem : w ∈ words cs := by simp [hw]
    exact (mem_words hmem).1 (List.flatten_eq_nil_iff.1 h w hmem)
  rw [hwords, flatten_words, List.filter_eq_nil_iff]
  simp only [Bool.not_eq_true]

/-- The characters other than underscores. -/
def unscored (cs : List Char) : List Char := cs.filter (· != '_')

/-- The ASCII letters and digits of a text, as small letters. -/
def lowered (text : String) : List Char := (text.toList.filter Char.isAlphanum).map Char.toLower

theorem guardDigit_cases (cs : List Char) : guardDigit cs = cs ∨ guardDigit cs = '_' :: cs := by
  rcases cs with _ | ⟨c, cs⟩
  · exact .inl rfl
  · rw [guardDigit]
    split_ifs
    · exact .inr rfl
    · exact .inl rfl

theorem words_guardDigit (cs : List Char) : words (guardDigit cs) = words cs := by
  rcases guardDigit_cases cs with h | h <;> rw [h]
  exact words_append_separator (by decide) [] cs

/-- A map that keeps underscores does not see the one before a digit either. -/
theorem unscored_map_guardDigit {f : Char → Char} (hf : f '_' = '_') (cs : List Char) :
    unscored ((guardDigit cs).map f) = unscored (cs.map f) := by
  rcases guardDigit_cases cs with h | h <;> rw [h]
  rw [List.map_cons, hf]
  rfl

/-! ## Snake case -/

theorem alphanum_of_small {c : Char} (h : c.isLower = true ∨ c.isDigit = true) :
    c.isAlphanum = true ∧ c.isUpper = false := by
  have hupper : ¬ c.isUpper = true := by
    rw [isLower_iff, isDigit_iff] at h
    rw [isUpper_iff]
    omega
  refine ⟨?_, by simpa using hupper⟩
  rcases h with h | h
  · simp [Char.isAlphanum, Char.isAlpha, h]
  · exact isAlphanum_of_isDigit h

/-- The words of joined words are these words, if they have small letters and digits only. -/
theorem words_intercalate : ∀ ws : List (List Char),
    (∀ w ∈ ws, w ≠ [] ∧ ∀ c ∈ w, c.isLower = true ∨ c.isDigit = true) →
      words (['_'].intercalate ws) = ws
  | [], _ => rfl
  | w :: ws, h => by
    obtain ⟨⟨hne, hsmall⟩, hrest⟩ := List.forall_mem_cons.1 h
    have hword : words w = [w] := words_of_not_upper hne fun c hc => alphanum_of_small (hsmall c hc)
    have ih := words_intercalate ws hrest
    rcases ws with _ | ⟨v, ws⟩
    · rw [List.intercalate_singleton, hword]
    · rw [List.intercalate_cons_cons, List.append_assoc, List.singleton_append,
        words_append_separator (by decide), hword, ih]
      rfl

theorem words_joined (cs : List Char) :
    words (['_'].intercalate ((words cs).map (·.map Char.toLower)))
      = (words cs).map (·.map Char.toLower) :=
  words_intercalate _ fun _ => mem_snakeWords

theorem joined_ne_nil {cs : List Char} (h : words cs ≠ []) :
    ['_'].intercalate ((words cs).map (·.map Char.toLower)) ≠ [] := by
  intro hjoined
  have hwords := words_joined cs
  rw [hjoined] at hwords
  exact h (List.map_eq_nil_iff.1 hwords.symm)

/-- The words of a snake case are those of the name, in small letters. -/
theorem words_toSnakeCase {name : String} (h : words name.toList ≠ []) :
    words (toSnakeCase name).toList = (words name.toList).map (·.map Char.toLower) := by
  rw [toList_toSnakeCase (joined_ne_nil h), words_guardDigit, words_joined]

/-- Snake case depends on the words alone, whatever their capitals are. -/
theorem toSnakeCase_congr {a b : String}
    (h : (words a.toList).map (·.map Char.toLower) = (words b.toList).map (·.map Char.toLower)) :
    toSnakeCase a = toSnakeCase b := by
  unfold toSnakeCase
  rw [h]

theorem toSnakeCase_toSnakeCase (name : String) :
    toSnakeCase (toSnakeCase name) = toSnakeCase name := by
  by_cases h : words name.toList = []
  · rw [toSnakeCase_of_words_nil h]
    decide
  · refine toSnakeCase_congr ?_
    rw [words_toSnakeCase h, List.map_map]
    refine List.map_congr_left fun w _ => ?_
    simp [Char.toLower_toLower_eq_toLower]

theorem lowered_eq (name : String) :
    lowered name = ((words name.toList).map (·.map Char.toLower)).flatten := by
  rw [lowered, ← flatten_words, List.map_flatten]

theorem unscored_lowered (name : String) : unscored (lowered name) = lowered name := by
  refine List.filter_eq_self.2 fun c hc => ?_
  rw [lowered_eq] at hc
  obtain ⟨w, hw, hc⟩ := List.mem_flatten.1 hc
  have hsmall := (mem_snakeWords hw).2 c hc
  have hne : c ≠ '_' := by
    rintro rfl
    exact absurd hsmall (by decide)
  simpa using hne

theorem unscored_toSnakeCase {name : String} (h : words name.toList ≠ []) :
    unscored (toSnakeCase name).toList = lowered name := by
  have hguard := unscored_map_guardDigit (f := id) rfl
    (['_'].intercalate ((words name.toList).map (·.map Char.toLower)))
  rw [List.map_id, List.map_id] at hguard
  rw [toList_toSnakeCase (joined_ne_nil h), hguard, ← unscored_lowered, lowered_eq]
  exact filter_intercalate (by decide) _

/-! ## Pascal case -/

theorem exists_capitalized {cs : List Char} (h : words cs ≠ []) :
    ∃ (c : Char) (rest : List Char), (words cs).flatMap capitalize = c.toUpper :: rest := by
  obtain ⟨w, ws, hws⟩ := List.exists_cons_of_ne_nil h
  have hw : w ∈ words cs := by simp [hws]
  obtain ⟨c, w, rfl⟩ := List.exists_cons_of_ne_nil (mem_words hw).1
  exact ⟨c, w ++ ws.flatMap capitalize, by rw [hws]; rfl⟩

/-- Capitalizing the words of a chunk changes nothing but its first letter. -/
theorem flatMap_capitalize_words {c : Char} {rest : List Char}
    (h : ∀ d ∈ c :: rest, d.isAlphanum = true) :
    (words (c :: rest)).flatMap capitalize = c.toUpper :: rest := by
  obtain ⟨w, ws, hwords, hrest, hcapital⟩ := camelWords_cons c rest
  rw [words, chunks_of_alphanum _ (List.cons_ne_nil c rest) h, List.flatMap_singleton, hwords,
    List.flatMap_cons, hcapital, capitalize, List.cons_append, hrest]

theorem toPascalCase_of_words_nil {name : String} (h : words name.toList = []) :
    toPascalCase name = "Thing" := by
  unfold toPascalCase
  rw [h]
  rfl

theorem toPascalCase_eq {name : String} (h : words name.toList ≠ []) :
    toPascalCase name
      = String.ofList (guardDigit ((words name.toList).flatMap capitalize)) := by
  obtain ⟨c, rest, hcs⟩ := exists_capitalized h
  unfold toPascalCase
  rw [hcs]

theorem toPascalCase_toPascalCase (name : String) :
    toPascalCase (toPascalCase name) = toPascalCase name := by
  by_cases h : words name.toList = []
  · rw [toPascalCase_of_words_nil h]
    decide
  · -- The words of the result may be cut elsewhere, but they are capitalized already.
    obtain ⟨c, rest, hcs⟩ := exists_capitalized h
    have hchars : ∀ d ∈ c.toUpper :: rest, d.isAlphanum = true := fun d hd =>
      isAlphanum_of_mem_capitalized (hcs ▸ hd)
    have hresult := toPascalCase_eq h
    rw [hcs] at hresult
    have hagain : (words (toPascalCase name).toList).flatMap capitalize = c.toUpper :: rest := by
      rw [hresult, String.toList_ofList, words_guardDigit, flatMap_capitalize_words hchars,
        Char.toUpper_toUpper_eq_toUpper]
    have hne : words (toPascalCase name).toList ≠ [] := by
      intro hnil
      simp [hnil] at hagain
    rw [toPascalCase_eq hne, hagain, hresult]

theorem map_toLower_capitalize (w : List Char) :
    (capitalize w).map Char.toLower = w.map Char.toLower := by
  rcases w with _ | ⟨c, w⟩
  · rfl
  · simp [capitalize, Char.toLower_toUpper_eq_toLower]

theorem unscored_toPascalCase {name : String} (h : words name.toList ≠ []) :
    unscored ((toPascalCase name).toList.map Char.toLower) = lowered name := by
  have hletters : ((words name.toList).flatMap capitalize).map Char.toLower = lowered name := by
    rw [List.map_flatMap, lowered_eq, List.flatMap_def]
    simp only [map_toLower_capitalize]
  rw [toPascalCase_eq h, String.toList_ofList, unscored_map_guardDigit (by decide), hletters,
    unscored_lowered]

/-! ## Names kept away from reserved ones -/

/-- The name with an underscore behind it if it is reserved. -/
def setApart (reserved : List String) (name : String) : String :=
  if reserved.contains name then name ++ "_" else name

theorem propertyNameFor_eq (name : String) :
    propertyNameFor name = setApart (keywords ++ reservedMembers) (toSnakeCase name) := by
  simp [propertyNameFor, setApart, isKeyword]

theorem moduleNameFor_eq_setApart (name : String) :
    moduleNameFor name = setApart keywords (toSnakeCase name) := rfl

theorem setApart_cases (reserved : List String) (name : String) :
    setApart reserved name = name ∨ setApart reserved name = name ++ "_" := by
  unfold setApart
  split_ifs
  · exact .inr rfl
  · exact .inl rfl

/-- A name that is set apart is not reserved, if no reserved name ends with an underscore. -/
theorem setApart_not_mem {reserved : List String}
    (h : ∀ r ∈ reserved, r.toList.getLast? ≠ some '_') (name : String) :
    setApart reserved name ∉ reserved := by
  unfold setApart
  split_ifs with hname
  · exact fun hmem => h _ hmem (by simp)
  · simpa using hname

theorem toSnakeCase_append_underscore (name : String) :
    toSnakeCase (name ++ "_") = toSnakeCase name := by
  refine toSnakeCase_congr ?_
  rw [String.toList_append]
  exact congrArg _ ((words_append_separator (by decide) _ []).trans (List.append_nil _))

/-- The underscore is found again when a name is derived from a derived one. -/
theorem toSnakeCase_setApart (reserved : List String) (name : String) :
    toSnakeCase (setApart reserved (toSnakeCase name)) = toSnakeCase name := by
  rcases setApart_cases reserved (toSnakeCase name) with h | h <;> rw [h]
  · exact toSnakeCase_toSnakeCase name
  · rw [toSnakeCase_append_underscore, toSnakeCase_toSnakeCase]

/-! ## Normal forms -/

/-- Whether a text has the form `[a-z_][a-z0-9_]*`. -/
def isSnakeName (text : String) : Bool :=
  text.toList.head?.any (fun c => c.isLower || c == '_') && text.toList.tail.all isSnake

theorem isSnakeName_cons {text : String} {c : Char} {rest : List Char}
    (h : text.toList = c :: rest) :
    isSnakeName text = true ↔ (c.isLower = true ∨ c = '_') ∧ ∀ d ∈ rest, isSnake d = true := by
  simp [isSnakeName, h]

theorem isSnakeName_toSnakeCase (name : String) : isSnakeName (toSnakeCase name) = true := by
  obtain ⟨c, rest, htext, hc⟩ := toSnakeCase_head name
  refine (isSnakeName_cons htext).2 ⟨hc.imp_right And.left, fun d hd => ?_⟩
  exact isSnake_of_mem_toSnakeCase (by rw [htext]; exact List.mem_cons_of_mem c hd)

theorem isSnakeName_setApart (reserved : List String) {name : String}
    (h : isSnakeName name = true) : isSnakeName (setApart reserved name) = true := by
  rcases setApart_cases reserved name with he | he <;> rw [he]
  · exact h
  · rcases hname : name.toList with _ | ⟨c, rest⟩
    · simp [isSnakeName, hname] at h
    · rw [isSnakeName_cons hname] at h
      have happend : (name ++ "_").toList = c :: (rest ++ ['_']) := by
        rw [String.toList_append, hname]
        rfl
      rw [isSnakeName_cons happend, List.forall_mem_append, List.forall_mem_singleton]
      exact ⟨h.1, h.2, rfl⟩

theorem propertyNameFor_not_mem (name : String) :
    propertyNameFor name ∉ keywords ++ reservedMembers := by
  rw [propertyNameFor_eq]
  exact setApart_not_mem (by decide) _

theorem propertyNameFor_not_reserved (name : String) :
    propertyNameFor name ∉ reservedMembers := fun h =>
  propertyNameFor_not_mem name (List.mem_append_right _ h)

theorem isKeyword_eq_false_iff {text : String} : isKeyword text = false ↔ text ∉ keywords := by
  simp [isKeyword]

theorem isKeyword_moduleNameFor (name : String) : isKeyword (moduleNameFor name) = false := by
  rw [isKeyword_eq_false_iff, moduleNameFor_eq_setApart]
  exact setApart_not_mem (by decide) _

/-- Names in snake case have their form and mean nothing else, deriving a name again changes
nothing, and all letters and digits of a name are kept in order. A name without any is replaced. -/
theorem names_in_normal_form (name : String) :
    (isSnakeName (toSnakeCase name) = true ∧ isSnakeName (propertyNameFor name) = true
        ∧ isSnakeName (moduleNameFor name) = true)
      ∧ (isKeyword (propertyNameFor name) = false ∧ propertyNameFor name ∉ reservedMembers
        ∧ isKeyword (moduleNameFor name) = false)
      ∧ (toPascalCase (toPascalCase name) = toPascalCase name
        ∧ toSnakeCase (toSnakeCase name) = toSnakeCase name
        ∧ propertyNameFor (propertyNameFor name) = propertyNameFor name
        ∧ moduleNameFor (moduleNameFor name) = moduleNameFor name)
      ∧ ((∃ c ∈ name.toList, c.isAlphanum = true) →
        unscored (toSnakeCase name).toList = lowered name
          ∧ unscored ((toPascalCase name).toList.map Char.toLower) = lowered name)
      ∧ ((∀ c ∈ name.toList, c.isAlphanum = false) →
        toSnakeCase name = "value" ∧ toPascalCase name = "Thing") := by
  have hsnake := isSnakeName_toSnakeCase name
  refine ⟨⟨hsnake, ?_, ?_⟩, ⟨isKeyword_eq_false_iff.2 fun h => ?_,
    propertyNameFor_not_reserved name, isKeyword_moduleNameFor name⟩,
    ⟨toPascalCase_toPascalCase name, toSnakeCase_toSnakeCase name, ?_, ?_⟩, fun hletter => ?_,
    fun hnone => ?_⟩
  · rw [propertyNameFor_eq]
    exact isSnakeName_setApart _ hsnake
  · rw [moduleNameFor_eq_setApart]
    exact isSnakeName_setApart _ hsnake
  · exact propertyNameFor_not_mem name (List.mem_append_left _ h)
  · rw [propertyNameFor_eq (propertyNameFor name), propertyNameFor_eq name, toSnakeCase_setApart]
  · rw [moduleNameFor_eq_setApart (moduleNameFor name), moduleNameFor_eq_setApart name,
      toSnakeCase_setApart]
  · have hwords : words name.toList ≠ [] := fun hnil => by
      obtain ⟨c, hc, halphanum⟩ := hletter
      rw [words_eq_nil_iff.1 hnil c hc] at halphanum
      contradiction
    exact ⟨unscored_toSnakeCase hwords, unscored_toPascalCase hwords⟩
  · have hwords := words_eq_nil_iff.2 hnone
    exact ⟨toSnakeCase_of_words_nil hwords, toPascalCase_of_words_nil hwords⟩

/-- Capitals are found again in the Pascal case of a name, though not all of its words. -/
theorem request_in_normal_form :
    toPascalCase "4a-bX HTTPRequest" = "_4aBXHTTPRequest"
      ∧ toSnakeCase "4a-bX HTTPRequest" = "_4a_b_x_http_request"
      ∧ toSnakeCase "_4aBXHTTPRequest" = "_4a_bxhttp_request"
      ∧ unscored "_4a_b_x_http_request".toList = lowered "4a-bX HTTPRequest" := by
  have hsnake : toSnakeCase "4a-bX HTTPRequest" = "_4a_b_x_http_request" := by decide +kernel
  obtain ⟨-, -, -, hletters, -⟩ := names_in_normal_form "4a-bX HTTPRequest"
  refine ⟨by decide +kernel, hsnake, by decide +kernel, ?_⟩
  rw [← hsnake]
  exact (hletters ⟨'4', by decide, by decide⟩).1

end ShapeForge.Naming
