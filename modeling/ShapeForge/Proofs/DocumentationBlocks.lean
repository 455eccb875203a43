import ShapeForge.Emission.Docstring
import ShapeForge.Proofs.Identifier
import ShapeForge.Proofs.TextConstants

/-!
# Documentation blocks

A text between triple quotes goes from the three quotes that open it to the next three quotes that
are not escaped (`Text.readBlock`). Documentation is written so that only three quotes in a row are
escaped, and backslashes; one or two quotes stand as they are. So what is written before the end is
read as it was (`Emission.readBlock_escape`), unless its last quotes run into the quotes that end it
or it holds the null character, which cannot be read at all (`Emission.readBlock_escape_null`).

The lines of a block are the escaped text of all its lines together (`Emission.toList_docstring`).
With more than one line this text ends with a line break and the indentation, so a quote can only
meet the end of the block if there is one line that ends with it.
-/

namespace ShapeForge

namespace Text

/-- What opens and closes a block. -/
def tripleQuote : List Char := List.replicate 3 '"'

/-- Reads a text behind its opening quotes: its value, and what follows its closing quotes. Escapes
of single characters are read; all others are refused, and so is the null character. -/
def readBlock : List Char → Option (List Char × List Char)
  | '\x00' :: _ => none
  | '\\' :: c :: rest =>
    (shortEscapes.lookup c).bind fun d => (readBlock rest).map (Prod.map (d :: ·) id)
  | '"' :: '"' :: '"' :: rest => some ([], rest)
  | '\\' :: [] => none
  | c :: rest => (readBlock rest).map (Prod.map (c :: ·) id)
  | [] => none

theorem readBlock_close (rest : List Char) : readBlock (tripleQuote ++ rest) = some ([], rest) :=
  rfl

theorem readBlock_null (rest : List Char) : readBlock ('\x00' :: rest) = none := rfl

theorem readBlock_escaped {c d : Char} (h : shortEscapes.lookup c = some d) (rest : List Char) :
    readBlock ('\\' :: c :: rest) = (readBlock rest).map (Prod.map (d :: ·) id) := by
  rw [readBlock, h, Option.bind_some]

theorem readBlock_cons {c : Char} {rest : List Char} (hnull : c ≠ '\x00') (hc : c ≠ '\\')
    (hquotes : ¬ tripleQuote <+: c :: rest) :
    readBlock (c :: rest) = (readBlock rest).map (Prod.map (c :: ·) id) := by
  rw [readBlock.eq_def]
  split
  · rename_i h
    exact absurd (List.cons.inj h).1 hnull
  · rename_i h
    exact absurd (List.cons.inj h).1 hc
  · rename_i more h
    rw [h] at hquotes
    exact absurd (List.prefix_append tripleQuote more) hquotes
  · rename_i h
    exact absurd (List.cons.inj h).1 hc
  · rename_i h
    rw [(List.cons.inj h).1, (List.cons.inj h).2]
  · rename_i h
    cases h

/-! ## Runs of blanks -/

/-- The characters that are no blanks, in order. -/
def inked (cs : List Char) : List Char := cs.filter fun c => !isBlank c

theorem mem_inked_iff {c : Char} (hc : isBlank c = false) {cs : List Char} :
    c ∈ inked cs ↔ c ∈ cs := by
  simp [inked, hc]

theorem splitBlank_blank {c : Char} (hc : isBlank c = true) (cs : List Char) :
    splitBlank (c :: cs) = splitBlank cs := if_pos hc

theorem splitBlank_cons {c : Char} (hc : isBlank c = false) (cs : List Char) :
    splitBlank (c :: cs) = [c] :: splitBlank cs
      ∨ ∃ word more, splitBlank cs = word :: more ∧ splitBlank (c :: cs) = (c :: word) :: more := by
  have hc := Bool.eq_false_iff.1 hc
  rcases cs with _ | ⟨d, cs⟩
  · exact .inl (if_neg hc)
  rcases hcs : splitBlank (d :: cs) with _ | ⟨word, more⟩
  · refine .inl ((if_neg hc).trans ?_)
    rw [hcs]
  have hsplit : splitBlank (c :: d :: cs)
      = if isBlank d then [c] :: word :: more else (c :: word) :: more := by
    refine (if_neg hc).trans ?_
    rw [hcs]
  rw [hsplit]
  split_ifs
  · exact .inl rfl
  · exact .inr ⟨word, more, rfl, rfl⟩

theorem splitBlank_concat {c : Char} (hc : isBlank c = false) : ∀ cs,
    ∃ words word, splitBlank (cs ++ [c]) = words ++ [word ++ [c]]
  | [] => ⟨[], [], if_neg (Bool.eq_false_iff.1 hc)⟩
  | d :: cs => by
    obtain ⟨words, word, ih⟩ := splitBlank_concat hc cs
    rw [List.cons_append]
    by_cases hd : isBlank d = true
    · exact ⟨words, word, by rw [splitBlank_blank hd, ih]⟩
    rcases splitBlank_cons (Bool.eq_false_iff.2 hd) (cs ++ [c]) with h | ⟨first, more, hmore, h⟩
    · exact ⟨[d] :: words, word, by rw [h, ih]; rfl⟩
    · -- The character goes in front of the first word, which may be the last one as well.
      rw [ih] at hmore
      rcases words with _ | ⟨second, words⟩
      · obtain ⟨rfl, rfl⟩ := List.cons.inj hmore
        exact ⟨[], d :: word, h⟩
      · obtain ⟨rfl, rfl⟩ := List.cons.inj hmore
        exact ⟨(d :: second) :: words, word, h⟩

theorem head?_collapseBlank {text : String} {c : Char} (h : text.toList.head? = some c)
    (hc : isBlank c = false) : (collapseBlank text).toList.head? = some c := by
  obtain ⟨rest, hrest⟩ := List.head?_eq_some_iff.1 h
  rw [collapseBlank, String.toList_ofList, hrest]
  rcases splitBlank_cons hc rest with hsplit | ⟨word, more, -, hsplit⟩
  · rw [hsplit]
    cases splitBlank rest <;> simp [List.intercalate, List.intersperse]
  · rw [hsplit]
    cases more <;> simp [List.intercalate, List.intersperse]

theorem getLast?_collapseBlank {text : String} {c : Char} (h : text.toList.getLast? = some c)
    (hc : isBlank c = false) : (collapseBlank text).toList.getLast? = some c := by
  obtain ⟨start, hstart⟩ := List.getLast?_eq_some_iff.1 h
  obtain ⟨words, word, hsplit⟩ := splitBlank_concat hc start
  rw [collapseBlank, String.toList_ofList, hstart, hsplit]
  rcases words with _ | ⟨first, words⟩
  · simp
  · rw [Naming.intercalate_concat _ _ _ (List.cons_ne_nil first words), ← List.append_assoc,
      ← List.append_assoc, List.getLast?_concat]

theorem flatten_splitBlank : ∀ cs, (splitBlank cs).flatten = inked cs
  | [] => rfl
  | c :: cs => by
    have ih := flatten_splitBlank cs
    by_cases hc : isBlank c = true
    · rw [splitBlank_blank hc, ih, inked, inked, List.filter_cons_of_neg (by simp [hc])]
    · have hinked : inked (c :: cs) = c :: inked cs :=
        List.filter_cons_of_pos (by simpa using hc)
      rcases splitBlank_cons (Bool.eq_false_iff.2 hc) cs with h | ⟨word, more, hmore, h⟩
      · rw [h, List.flatten_cons, ih, hinked]
        rfl
      · rw [hmore] at ih
        rw [h, hinked, ← ih]
        rfl

theorem inked_intercalate (words : List (List Char)) :
    inked ([' '].intercalate words) = inked words.flatten :=
  Naming.filter_intercalate (by decide) words

/-- Only blanks are changed. -/
theorem inked_collapseBlank (text : String) :
    inked (collapseBlank text).toList = inked text.toList := by
  rw [collapseBlank, String.toList_ofList, inked_intercalate, flatten_splitBlank]
  simp [inked]

theorem mem_collapseBlank_iff {c : Char} (hc : isBlank c = false) {text : String} :
    c ∈ (collapseBlank text).toList ↔ c ∈ text.toList := by
  rw [← mem_inked_iff hc, inked_collapseBlank, mem_inked_iff hc]

end Text

open Text (tripleQuote readBlock)

namespace Emission

/-- A text as it is written in a block. -/
def escape (cs : List Char) : List Char := escapeQuotes (doubleBackslashes cs)

theorem escapeQuotes_cons {c : Char} {cs : List Char} (h : ¬ tripleQuote <+: c :: cs) :
    escapeQuotes (c :: cs) = c :: escapeQuotes cs := by
  rw [escapeQuotes.eq_def]
  split
  · rename_i more heq
    rw [heq] at h
    exact absurd (List.prefix_append tripleQuote more) h
  · rename_i heq
    rw [(List.cons.inj heq).1, (List.cons.inj heq).2]
  · rename_i heq
    cases heq

theorem doubleBackslashes_cons {c : Char} (hc : c ≠ '\\') (cs : List Char) :
    doubleBackslashes (c :: cs) = c :: doubleBackslashes cs := by
  simp [doubleBackslashes, hc]

/-- Backslashes are no quotes, so doubling them makes no run of quotes longer. -/
theorem quotes_of_doubleBackslashes : ∀ {n : ℕ} {cs : List Char},
    List.replicate n '"' <+: doubleBackslashes cs → List.replicate n '"' <+: cs
  | 0, _, _ => List.nil_prefix
  | n + 1, [], h => h
  | n + 1, c :: cs, h => by
    by_cases hc : c = '\\'
    · subst hc
      simp [doubleBackslashes, List.replicate_succ] at h
    · rw [doubleBackslashes_cons hc, List.replicate_succ, List.cons_prefix_cons] at h
      rw [List.replicate_succ, List.cons_prefix_cons]
      exact ⟨h.1, quotes_of_doubleBackslashes h.2⟩

theorem escape_quotes (cs : List Char) :
    escape (tripleQuote ++ cs) = '\\' :: '"' :: '\\' :: '"' :: '\\' :: '"' :: escape cs := rfl

theorem escape_backslash (cs : List Char) : escape ('\\' :: cs) = '\\' :: '\\' :: escape cs := by
  have hfirst : ¬ tripleQuote <+: '\\' :: '\\' :: doubleBackslashes cs := by
    simp [tripleQuote, List.replicate_succ]
  have hsecond : ¬ tripleQuote <+: '\\' :: doubleBackslashes cs := by
    simp [tripleQuote, List.replicate_succ]
  have hdouble : doubleBackslashes ('\\' :: cs) = '\\' :: '\\' :: doubleBackslashes cs := rfl
  rw [escape, hdouble, escapeQuotes_cons hfirst, escapeQuotes_cons hsecond]
  rfl

theorem escape_cons {c : Char} {cs : List Char} (hc : c ≠ '\\')
    (hquotes : ¬ tripleQuote <+: c :: cs) : escape (c :: cs) = c :: escape cs := by
  rw [escape, doubleBackslashes_cons hc, escapeQuotes_cons]
  · rfl
  · rw [← doubleBackslashes_cons hc]
    exact fun h => hquotes (quotes_of_doubleBackslashes h)

/-- What stands in front of a text: three quotes, a backslash, or another character. -/
theorem escape_induction {P : List Char → Prop} (nil : P [])
    (quotes : ∀ cs, P cs → P (tripleQuote ++ cs)) (backslash : ∀ cs, P cs → P ('\\' :: cs))
    (other : ∀ c cs, c ≠ '\\' → ¬ tripleQuote <+: c :: cs → P cs → P (c :: cs)) :
    ∀ cs, P cs := by
  intro cs
  induction cs using escapeQuotes.induct with
  | case1 rest ih => exact quotes rest ih
  | case2 c rest h ih =>
    by_cases hc : c = '\\'
    · subst hc
      exact backslash rest ih
    · refine other c rest hc (fun hquotes => ?_) ih
      obtain ⟨more, hmore⟩ := hquotes
      have hcons := List.cons.inj hmore
      exact h more hcons.1.symm hcons.2.symm
  | case3 => exact nil

/-! ## Reading what is written -/

/-- No quote at the end of the one text meets a quote at the start of the other. -/
def Parted (cs rest : List Char) : Prop := cs.getLast? = some '"' → rest.head? ≠ some '"'

theorem Parted.tail {c : Char} {cs rest : List Char} (h : Parted (c :: cs) rest) :
    Parted cs rest := by
  intro hlast
  refine h ?_
  rw [List.getLast?_cons, hlast]
  rfl

/-- Behind a quote, the quotes that are written next are quotes of the text. -/
theorem quotes_of_escape {rest : List Char} : ∀ {n : ℕ} {cs : List Char},
    Parted ('"' :: cs) rest → List.replicate n '"' <+: escape cs ++ rest →
      List.replicate n '"' <+: cs
  | 0, _, _, _ => List.nil_prefix
  | n + 1, [], h, hquotes => by
    obtain ⟨more, hmore⟩ := hquotes
    refine absurd ?_ (h rfl)
    have hrest : '"' :: (List.replicate n '"' ++ more) = rest := hmore
    rw [← hrest]
    rfl
  | n + 1, c :: cs, h, hquotes => by
    rw [List.replicate_succ] at hquotes ⊢
    by_cases htriple : tripleQuote <+: c :: cs
    · -- Three quotes are escaped, so a backslash comes first.
      obtain ⟨more, hmore⟩ := htriple
      rw [← hmore, escape_quotes] at hquotes
      simp at hquotes
    by_cases hc : c = '\\'
    · rw [hc, escape_backslash] at hquotes
      simp at hquotes
    · rw [escape_cons hc htriple, List.cons_append, List.cons_prefix_cons] at hquotes
      obtain ⟨rfl, hquotes⟩ := hquotes
      exact List.cons_prefix_cons.2 ⟨rfl, quotes_of_escape h.tail hquotes⟩

theorem not_tripleQuote_escape {c : Char} {cs rest : List Char}
    (hquotes : ¬ tripleQuote <+: c :: cs) (h : Parted (c :: cs) rest) :
    ¬ tripleQuote <+: c :: (escape cs ++ rest) := by
  intro hbegins
  rw [tripleQuote, List.replicate_succ, List.cons_prefix_cons] at hbegins hquotes
  obtain ⟨rfl, hbegins⟩ := hbegins
  exact hquotes ⟨rfl, quotes_of_escape h hbegins⟩

/-- What is written is read back, and what follows is read behind it. -/
theorem readBlock_escape {rest : List Char} : ∀ cs, '\x00' ∉ cs → Parted cs rest →
    readBlock (escape cs ++ rest) = (readBlock rest).map (Prod.map (cs ++ ·) id) := by
  refine escape_induction ?_ ?_ ?_ ?_
  · intro _ _
    exact Option.map_id'.symm
  · intro cs ih hnull h
    have hquote : Text.shortEscapes.lookup '"' = some '"' := by decide
    rw [escape_quotes]
    simp only [List.cons_append, Text.readBlock_escaped hquote,
      ih (fun hcs => hnull (List.mem_append_right _ hcs)) h.tail.tail.tail, Option.map_map]
    rfl
  · intro cs ih hnull h
    have hbackslash : Text.shortEscapes.lookup '\\' = some '\\' := by decide
    rw [escape_backslash]
    simp only [List.cons_append, Text.readBlock_escaped hbackslash,
      ih (List.not_mem_of_not_mem_cons hnull) h.tail, Option.map_map]
    rfl
  · intro c cs hc hquotes ih hnull h
    rw [escape_cons hc hquotes, List.cons_append,
      Text.readBlock_cons (List.ne_of_not_mem_cons hnull).symm hc
        (not_tripleQuote_escape hquotes h),
      ih (List.not_mem_of_not_mem_cons hnull) h.tail, Option.map_map]
    rfl

/-! ## Joined texts -/

theorem quotes_of_append {ys : List Char} (h : ys.head? ≠ some '"') : ∀ {n : ℕ} {xs : List Char},
    List.replicate n '"' <+: xs ++ ys → List.replicate n '"' <+: xs
  | 0, _, _ => List.nil_prefix
  | n + 1, [], hquotes => by
    obtain ⟨more, hmore⟩ := hquotes
    have hys : '"' :: (List.replicate n '"' ++ more) = ys := hmore
    rw [← hys] at h
    exact absurd rfl h
  | n + 1, x :: xs, hquotes => by
    rw [List.cons_append, List.replicate_succ, List.cons_prefix_cons] at hquotes
    rw [List.replicate_succ, List.cons_prefix_cons]
    exact ⟨hquotes.1, quotes_of_append h hquotes.2⟩

/-- Texts are escaped apart if no quote starts the second. -/
theorem escape_append {ys : List Char} (h : ys.head? ≠ some '"') :
    ∀ xs, escape (xs ++ ys) = escape xs ++ escape ys := by
  refine escape_induction rfl ?_ ?_ ?_
  · intro cs ih
    rw [List.append_assoc, escape_quotes, escape_quotes, ih]
    rfl
  · intro cs ih
    rw [List.cons_append, escape_backslash, escape_backslash, ih]
    rfl
  · intro c cs hc hquotes ih
    have hlong : ¬ tripleQuote <+: c :: (cs ++ ys) := by
      rw [← List.cons_append]
      exact fun hbegins => hquotes (quotes_of_append h hbegins)
    rw [List.cons_append, escape_cons hc hlong, escape_cons hc hquotes, ih]
    rfl

/-- Characters that are never escaped. -/
theorem escape_plain_append {xs : List Char} (ys : List Char)
    (h : ∀ c ∈ xs, c ≠ '"' ∧ c ≠ '\\') : escape (xs ++ ys) = xs ++ escape ys := by
  induction xs with
  | nil => rfl
  | cons c xs ih =>
    obtain ⟨⟨hquote, hbackslash⟩, hrest⟩ := List.forall_mem_cons.1 h
    have hno : ¬ tripleQuote <+: c :: (xs ++ ys) := by
      rw [tripleQuote, List.replicate_succ, List.cons_prefix_cons]
      exact fun hbegins => hquote hbegins.1.symm
    rw [List.cons_append, escape_cons hbackslash hno, ih hrest]
    rfl

/-- A text with the null character cannot be read. -/
theorem readBlock_escape_null {cs : List Char} (h : '\x00' ∈ cs) (rest : List Char) :
    readBlock (escape cs ++ rest) = none := by
  obtain ⟨xs, ys, rfl, hxs⟩ := List.eq_append_cons_of_mem h
  have hplain : ∀ c ∈ ['\x00'], c ≠ '"' ∧ c ≠ '\\' := by simp
  have hnull : escape ('\x00' :: ys) = '\x00' :: escape ys := escape_plain_append ys hplain
  have hparted : Parted xs ('\x00' :: (escape ys ++ rest)) := fun _ => by simp
  rw [escape_append (by simp), hnull, List.append_assoc, List.cons_append,
    readBlock_escape xs hxs hparted, Text.readBlock_null, Option.map_none]

theorem escape_eq_nil_iff {cs : List Char} : escape cs = [] ↔ cs = [] := by
  refine ⟨fun h => ?_, fun h => by rw [h]; rfl⟩
  rcases cs with _ | ⟨c, cs⟩
  · rfl
  by_cases htriple : tripleQuote <+: c :: cs
  · obtain ⟨more, hmore⟩ := htriple
    rw [← hmore, escape_quotes] at h
    cases h
  by_cases hc : c = '\\'
  · rw [hc, escape_backslash] at h
    cases h
  · rw [escape_cons hc htriple] at h
    cases h

/-! ## The text of a block -/

/-- The lines of documentation that are written, each with single spaces only. -/
def docLines (lines : List String) : List String := dropEmptyEnd (lines.map Text.collapseBlank)

/-- A line behind the first one. -/
def indented (indent line : String) : String := if line.isEmpty then "" else indent ++ line

/-- The text of a block with some lines. -/
def blockText (indent : String) : List String → String
  | [] => ""
  | [line] => line
  | first :: rest => "\n".intercalate (first :: rest.map (indented indent) ++ [indent])

theorem toList_lines (first : String) : ∀ rest : List String,
    ("\n".intercalate (first :: rest)).toList
      = first.toList ++ rest.flatMap fun line => '\n' :: line.toList
  | [] => by simp
  | second :: rest => by
    rw [String.intercalate_cons_cons, String.toList_append, String.toList_append,
      toList_lines second rest, List.flatMap_cons, List.append_assoc]
    rfl

theorem toList_blockText (indent first second : String) (rest : List String) :
    (blockText indent (first :: second :: rest)).toList
      = first.toList ++ ((second :: rest).map (indented indent) ++ [indent]).flatMap
        fun line => '\n' :: line.toList := toList_lines first _

/-- A text as it is written. -/
def escapeText (text : String) : String := String.ofList (escape text.toList)

theorem escapeText_isEmpty (text : String) : (escapeText text).isEmpty = text.isEmpty := by
  rw [Bool.eq_iff_iff, String.isEmpty_iff, String.isEmpty_iff, ← String.toList_eq_nil_iff,
    ← String.toList_eq_nil_iff, escapeText, String.toList_ofList, escape_eq_nil_iff]

theorem dropEmptyEnd_escaped (lines : List String) :
    dropEmptyEnd (lines.map docLine) = (docLines lines).map escapeText := by
  have hmap : lines.map docLine = (lines.map Text.collapseBlank).map escapeText := by
    rw [List.map_map]
    rfl
  have hempty : String.isEmpty ∘ escapeText = String.isEmpty := funext escapeText_isEmpty
  rw [hmap, docLines, dropEmptyEnd, dropEmptyEnd, ← List.map_reverse, List.dropWhile_map, hempty,
    List.map_reverse]

/-- Documentation of one line does not end with a quote. -/
def Closes (lines : List String) : Prop :=
  ∀ line, docLines lines = [line] → line.toList.getLast? ≠ some '"'

theorem closes_nil : Closes [] := by
  intro line h
  cases h

theorem docLines_concat (xs : List String) {y : String} (hy : Text.collapseBlank y ≠ "") :
    docLines (xs ++ [y]) = (xs ++ [y]).map Text.collapseBlank := by
  rw [docLines, dropEmptyEnd, List.map_append, List.map_singleton, List.reverse_append,
    List.reverse_singleton, List.singleton_append, List.dropWhile_cons_of_neg (by simpa using hy),
    List.reverse_cons, List.reverse_reverse]

theorem closes_of_getLast? (xs : List String) {y : String} {c : Char}
    (hlast : y.toList.getLast? = some c) (hblank : Text.isBlank c = false) (hc : c ≠ '"') :
    Closes (xs ++ [y]) := by
  have hend := Text.getLast?_collapseBlank hlast hblank
  have hy : Text.collapseBlank y ≠ "" := by
    intro h
    simp [h] at hend
  intro line hline
  rw [docLines_concat xs hy] at hline
  have hlines := congrArg List.getLast? hline
  rw [List.map_append, List.map_singleton, List.getLast?_concat, List.getLast?_singleton,
    Option.some_inj] at hlines
  rw [← hlines, hend]
  exact fun h => hc (Option.some.inj h)

theorem closes_of_head? {xs : List String} (hxs : xs ≠ []) {y : String} {c : Char}
    (hhead : y.toList.head? = some c) (hblank : Text.isBlank c = false) : Closes (xs ++ [y]) := by
  have hstart := Text.head?_collapseBlank hhead hblank
  have hy : Text.collapseBlank y ≠ "" := by
    intro h
    simp [h] at hstart
  intro line hline
  rw [docLines_concat xs hy] at hline
  have hlength := congrArg List.length hline
  rw [List.length_map, List.length_append, List.length_singleton, List.length_singleton] at hlength
  have hpos := List.length_pos_of_ne_nil hxs
  omega

theorem mem_docLines_iff {c : Char} (hc : Text.isBlank c = false) {lines : List String} :
    (∃ line ∈ docLines lines, c ∈ line.toList) ↔ ∃ line ∈ lines, c ∈ line.toList := by
  -- Lines that are dropped are empty.
  have hdropped : ∀ line ∈ lines.map Text.collapseBlank, c ∈ line.toList →
      line ∈ docLines lines := by
    intro line hline hmem
    have hparts := List.takeWhile_append_dropWhile (p := String.isEmpty)
      (l := (lines.map Text.collapseBlank).reverse)
    rw [← List.mem_reverse, ← hparts, List.mem_append] at hline
    rcases hline with hempty | hkept
    · have hline := String.isEmpty_iff.1 (List.mem_takeWhile_imp hempty)
      simp [hline] at hmem
    · exact List.mem_reverse.2 hkept
  have hkept : ∀ line ∈ docLines lines, line ∈ lines.map Text.collapseBlank := by
    intro line hline
    exact List.mem_reverse.1 ((List.dropWhile_sublist _).mem (List.mem_reverse.1 hline))
  constructor
  · rintro ⟨line, hline, hmem⟩
    obtain ⟨text, htext, rfl⟩ := List.mem_map.1 (hkept line hline)
    exact ⟨text, htext, (Text.mem_collapseBlank_iff hc).1 hmem⟩
  · rintro ⟨text, htext, hmem⟩
    have hmem := (Text.mem_collapseBlank_iff hc).2 hmem
    exact ⟨_, hdropped _ (List.mem_map_of_mem htext) hmem, hmem⟩

variable {indent : String} (hindent : ∀ c ∈ indent.toList, c = ' ')

include hindent

theorem plain_indent : ∀ c ∈ indent.toList, c ≠ '"' ∧ c ≠ '\\' := by
  intro c hc
  rw [hindent c hc]
  decide

theorem escape_break (xs ys : List Char) :
    escape (xs ++ '\n' :: (indent.toList ++ ys)) = escape xs ++ '\n' :: (indent.toList ++ escape ys)
    := by
  have hplain : ∀ c ∈ '\n' :: indent.toList, c ≠ '"' ∧ c ≠ '\\' :=
    List.forall_mem_cons.2 ⟨by decide, plain_indent hindent⟩
  rw [escape_append (by simp), ← List.cons_append, escape_plain_append ys hplain]
  rfl

theorem escape_indented (xs : List Char) (line : String) :
    escape (xs ++ '\n' :: (indented indent line).toList)
      = escape xs ++ '\n' :: (indented indent (escapeText line)).toList := by
  rw [indented, indented, escapeText_isEmpty]
  split_ifs
  · exact escape_append (by simp) xs
  · rw [String.toList_append, String.toList_append, escape_break hindent, escapeText,
      String.toList_ofList]

/-- Line breaks and indentation stay as they are between the lines of a block. -/
theorem escape_lines : ∀ (lines : List String) (xs : List Char),
    escape (xs ++ (lines.map (indented indent) ++ [indent]).flatMap fun line => '\n' :: line.toList)
      = escape xs ++ ((lines.map escapeText).map (indented indent) ++ [indent]).flatMap
        fun line => '\n' :: line.toList
  | [], xs => by
    have hlast := escape_break hindent xs []
    rw [escape_eq_nil_iff.2 rfl, List.append_nil] at hlast
    simpa using hlast
  | line :: lines, xs => by
    have hrest := escape_lines lines (xs ++ '\n' :: (indented indent line).toList)
    rw [escape_indented hindent, List.append_assoc, List.append_assoc] at hrest
    exact hrest

/-- A block is its text, escaped, between quotes. -/
theorem toList_docstring {lines : List String} (h : docLines lines ≠ []) :
    ("\n".intercalate (docstring indent lines)).toList
      = indent.toList ++ tripleQuote ++ escape (blockText indent (docLines lines)).toList
        ++ tripleQuote := by
  rw [docstring, dropEmptyEnd_escaped]
  rcases hlines : docLines lines with _ | ⟨first, _ | ⟨second, rest⟩⟩
  · exact absurd hlines h
  · simp [blockText, escapeText, tripleQuote]
  · have hescape := escape_lines hindent (second :: rest) first.toList
    have hblock := toList_lines (indent ++ "\"\"\"" ++ escapeText first)
      (((second :: rest).map escapeText).map (indented indent) ++ [indent ++ "\"\"\""])
    rw [toList_blockText, hescape]
    refine hblock.trans ?_
    simp [List.flatMap_append, escapeText, tripleQuote]

theorem getLast?_blockText {lines : List String} (h : Closes lines) :
    (blockText indent (docLines lines)).toList.getLast? ≠ some '"' := by
  intro hlast
  rcases hlines : docLines lines with _ | ⟨first, _ | ⟨second, more⟩⟩
  · simp [hlines, blockText] at hlast
  · rw [hlines] at hlast
    exact h first hlines hlast
  · -- The last line of the text is the indentation alone.
    rw [hlines, toList_blockText, List.flatMap_append, List.flatMap_singleton,
      ← List.append_assoc, List.getLast?_append_of_ne_nil _ (List.cons_ne_nil _ _)] at hlast
    rcases List.mem_cons.1 (List.mem_of_getLast? hlast) with hbreak | hspace
    · cases hbreak
    · cases hindent _ hspace

/-- The text of a block is read back exactly if it does not hold the null character. -/
theorem readBlock_blockText_iff {lines : List String} (h : Closes lines) (rest : List Char) :
    readBlock (escape (blockText indent (docLines lines)).toList ++ (tripleQuote ++ rest))
        = some ((blockText indent (docLines lines)).toList, rest)
      ↔ '\x00' ∉ (blockText indent (docLines lines)).toList := by
  refine ⟨fun hread hnull => ?_, fun hnull => ?_⟩
  · rw [readBlock_escape_null hnull] at hread
    cases hread
  · rw [readBlock_escape _ hnull, Text.readBlock_close, Option.map_some]
    · simp
    · exact fun hlast => absurd hlast (getLast?_blockText hindent h)

theorem mem_blockText_iff {c : Char} (hc : Text.isBlank c = false) (lines : List String) :
    c ∈ (blockText indent lines).toList ↔ ∃ line ∈ lines, c ∈ line.toList := by
  have hbreak : c ≠ '\n' := by
    rintro rfl
    exact absurd hc (by decide)
  have hindented : c ∉ indent.toList := by
    intro hmem
    rw [hindent c hmem] at hc
    exact absurd hc (by decide)
  have hline (line : String) : c ∈ (indented indent line).toList ↔ c ∈ line.toList := by
    unfold indented
    split_ifs with hempty
    · rw [String.isEmpty_iff.1 hempty]
    · simp [hindented]
  rcases lines with _ | ⟨first, _ | ⟨second, rest⟩⟩
  · simp [blockText]
  · simp [blockText]
  · rw [toList_blockText]
    simp [hbreak, hindented, hline]

/-- A character that is no blank is in the text exactly if it is in the documentation. -/
theorem mem_documentation_iff {c : Char} (hc : Text.isBlank c = false) (lines : List String) :
    c ∈ (blockText indent (docLines lines)).toList ↔ ∃ line ∈ lines, c ∈ line.toList := by
  rw [mem_blockText_iff hindent hc, mem_docLines_iff hc]

end Emission

end ShapeForge
