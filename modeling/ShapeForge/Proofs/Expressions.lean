import ShapeForge.Emission.Validation
import ShapeForge.Proofs.SourceNumbers
import ShapeForge.Proofs.TextConstants
import ShapeForge.Proofs.WordNames

/-!
# Expressions of the emitted source

An operand is a text constant, a word or a tuple of these; a call has keywords and operands. Both
are read from the pieces of a line, which are cut at the commas outside of brackets
(`Emission.items`).

A constant is written as an operand (`Emission.Denotes`), so a tuple of texts is read as these
texts, and so are the arguments of a call that is put together from such operands
(`Emission.exists_call`).
-/

namespace ShapeForge.Emission

open Text (Piece Reads quoted isWord isPlain opensConstant)

/-- An operand as it is written. -/
inductive Operand where
  | text (value : String)
  | word (spelling : String)
  | tuple (items : List Operand)

namespace Operand

mutual

/-- The texts of an operand. -/
def texts : Operand → List String
  | .text value => [value]
  | .word _ => []
  | .tuple items => allTexts items

/-- The texts of operands. -/
def allTexts : List Operand → List String
  | [] => []
  | item :: items => item.texts ++ allTexts items

end

theorem allTexts_map_text (ts : List String) : allTexts (ts.map .text) = ts := by
  induction ts with
  | nil => rfl
  | cons t ts ih => rw [List.map_cons, allTexts, texts, ih, List.singleton_append]

end Operand

/-- The number of open brackets behind a piece. -/
def depthAfter (depth : Nat) : Piece → Nat
  | .char c =>
    if ['(', '[', '\x7b'].contains c then depth + 1
    else if [')', ']', '\x7d'].contains c then depth - 1
    else depth
  | _ => depth

/-- Cuts pieces at the commas outside of brackets. -/
def cutCommas : Nat → List Piece → List (List Piece)
  | _, [] => [[]]
  | depth, p :: rest =>
    if depth = 0 ∧ p = .char ',' then [] :: cutCommas 0 rest
    else (cutCommas (depthAfter depth p) rest).modifyHead (p :: ·)

/-- What stands between commas, without the spaces in front. -/
def items (pieces : List Piece) : List (List Piece) :=
  (cutCommas 0 pieces).map fun part => part.dropWhile (· == .char ' ')

/-- A character of a word. -/
def wordChar? : Piece → Option Char
  | .char c => if isWord c || ['.', '+', '-'].contains c then some c else none
  | _ => none

/-- Reads a text or a word. -/
def atom? : List Piece → Option Operand
  | [.text value] => some (.text value)
  | pieces =>
    if pieces.isEmpty then none
    else (pieces.mapM wordChar?).map fun cs => .word (String.ofList cs)

/-- What stands behind an opening, up to the bracket at the end. -/
def inBrackets? (opening pieces : List Piece) : Option (List Piece) :=
  if opening.isPrefixOf pieces ∧ pieces.getLast? = some (.char ')') then
    some (pieces.drop opening.length).dropLast
  else none

/-- Reads what stands in brackets. One item without a comma is no tuple. -/
def bracketed? (pieces : List Piece) : Option Operand :=
  match items pieces with
  | [[]] => some (.tuple [])
  | [part] => atom? part
  | parts =>
    ((if parts.getLast? = some [] then parts.dropLast else parts).mapM atom?).map .tuple

/-- Reads an operand. -/
def operand? (pieces : List Piece) : Option Operand :=
  match inBrackets? [.char '('] pieces with
  | some inner => bracketed? inner
  | none => atom? pieces

/-- Reads a keyword and its operand. -/
def argument? (pieces : List Piece) : Option (String × Operand) :=
  match atom? (pieces.takeWhile (· != .char '=')), pieces.dropWhile (· != .char '=') with
  | some (.word keyword), _ :: value => (operand? value).map (keyword, ·)
  | _, _ => none

/-- Reads the arguments of a call. -/
def call? (function : String) (pieces : List Piece) : Option (List (String × Operand)) :=
  (inBrackets? ((function ++ "(").toList.map .char) pieces).bind fun inner =>
    (items inner).mapM argument?

/-! ## Cutting at commas -/

/-- Nothing is cut in these pieces, and they change the depth of brackets from one to the other. -/
def Uncut (depth after : ℕ) (xs : List Piece) : Prop :=
  ∀ rest, cutCommas depth (xs ++ rest) = (cutCommas after rest).modifyHead (xs ++ ·)

section Cutting

variable {depth middle after : ℕ} {xs ys : List Piece}

theorem Uncut.nil : Uncut depth depth [] := by
  intro rest
  rcases h : cutCommas depth rest <;> simp [h]

theorem Uncut.append (hxs : Uncut depth middle xs) (hys : Uncut middle after ys) :
    Uncut depth after (xs ++ ys) := by
  intro rest
  rw [List.append_assoc, hxs, hys]
  rcases cutCommas after rest <;> simp

theorem uncut_singleton (depth : ℕ) (p : Piece) (h : ¬ (depth = 0 ∧ p = .char ',')) :
    Uncut depth (depthAfter depth p) [p] := by
  intro rest
  rw [List.singleton_append, cutCommas, if_neg h]
  rfl

theorem uncut_text (depth : ℕ) (value : String) : Uncut depth depth [.text value] :=
  uncut_singleton depth _ (by simp)

theorem uncut_chars (depth : ℕ) : ∀ {cs : List Char},
    (∀ c ∈ cs, c ∉ ['(', '[', '\x7b', ')', ']', '\x7d', ',']) →
      Uncut depth depth (cs.map .char)
  | [], _ => .nil
  | c :: cs, h => by
    rw [List.forall_mem_cons] at h
    obtain ⟨hc, hcs⟩ := h
    have hdepth : depthAfter depth (.char c) = depth := by
      simp only [List.mem_cons, List.not_mem_nil, or_false, not_or] at hc
      simp [depthAfter, hc]
    have hchar : Uncut depth depth [.char c] := by
      have h := uncut_singleton depth (.char c) (by rintro ⟨-, ⟨⟩⟩; simp at hc)
      rwa [hdepth] at h
    exact hchar.append (uncut_chars depth hcs)

/-- The pieces that join items. -/
def comma : List Piece := [.char ',', .char ' ']

theorem items_of_uncut (h : Uncut 0 0 xs) (hstart : xs.head? ≠ some (.char ' ')) :
    items xs = [xs] := by
  have hcut := h []
  rw [List.append_nil] at hcut
  rw [items, hcut]
  rcases xs with _ | ⟨x, xs⟩
  · rfl
  · simp_all [cutCommas]

theorem items_append_comma (h : Uncut 0 0 xs) (hstart : xs.head? ≠ some (.char ' '))
    (rest : List Piece) : items (xs ++ comma ++ rest) = xs :: items rest := by
  have hblank : (cutCommas 0 (.char ' ' :: rest)).map (fun part => part.dropWhile (· == .char ' '))
      = items rest := by
    rw [cutCommas, if_neg (by simp), items]
    have hdepth : depthAfter 0 (.char ' ') = 0 := by decide
    rw [hdepth]
    rcases cutCommas 0 rest <;> simp
  rw [List.append_assoc, items, h, comma, List.cons_append, List.singleton_append, cutCommas,
    if_pos ⟨rfl, rfl⟩, List.modifyHead_cons, List.append_nil, List.map_cons, hblank]
  congr 1
  rcases xs with _ | ⟨x, xs⟩
  · rfl
  · simp_all

/-- Joined parts are cut apart again. -/
theorem items_intercalate : ∀ {parts : List (List Piece)}, parts ≠ [] →
    (∀ part ∈ parts, Uncut 0 0 part ∧ part.head? ≠ some (.char ' ')) →
      items (comma.intercalate parts) = parts
  | [], hne, _ => absurd rfl hne
  | [part], _, h => by
    rw [List.intercalate_singleton]
    exact items_of_uncut (h part (by simp)).1 (h part (by simp)).2
  | part :: next :: parts, _, h => by
    rw [List.intercalate_cons_cons, items_append_comma (h part (by simp)).1 (h part (by simp)).2,
      items_intercalate (by simp) fun q hq => h q (List.mem_cons_of_mem part hq)]

end Cutting

/-! ## What constants are read as -/

/-- The characters of words and numbers. -/
def isSpelled (c : Char) : Bool := c.isAlphanum || ['_', '.', '+', '-'].contains c

/-- Whether a text is a word or a number. -/
def isSpelling (text : String) : Bool := text != "" && text.toList.all isSpelled

/-- The characters that mean something outside of words. -/
def marks : List Char :=
  Text.quotes ++ Text.lineBreaks ++ ['#', ' ', '=', ',', '(', '[', '\x7b', ')', ']', '\x7d']

theorem not_mem_marks {c : Char} (h : isSpelled c = true) : c ∉ marks := by
  have hall : (marks.all fun m => !isSpelled m) = true := rfl
  intro hc
  have hnot := List.all_eq_true.1 hall c hc
  rw [h] at hnot
  contradiction

theorem isSpelled_of_mem {text : String} (h : isSpelling text = true) :
    ∀ c ∈ text.toList, isSpelled c = true :=
  List.all_eq_true.1 (Bool.and_eq_true_iff.1 h).2

theorem isPlainChar_of_isSpelled {c : Char} (h : isSpelled c = true) :
    Text.isPlainChar c = true := by
  rw [isSpelled, Bool.or_eq_true] at h
  rcases h with h | h
  · simp only [Char.isAlphanum, Char.isAlpha, Char.isUpper, Char.isLower, Char.isDigit,
      UInt32.le_iff_toNat_le, Bool.or_eq_true, Bool.and_eq_true, decide_eq_true_eq, ge_iff_le,
      Char.reduceVal, UInt32.reduceToNat] at h
    simp only [Text.isPlainChar, Char.toNat, Bool.and_eq_true, decide_eq_true_eq, bne_iff_ne]
    omega
  · have hmarks : ['_', '.', '+', '-'].all Text.isPlainChar = true := by decide
    exact List.all_eq_true.1 hmarks c (List.contains_iff_mem.1 h)

theorem isPlain_of_isSpelled {text : String} (h : ∀ c ∈ text.toList, isSpelled c = true) :
    isPlain text = true :=
  List.all_eq_true.2 fun c hc => isPlainChar_of_isSpelled (h c hc)

theorem isPlain_of_isWordText {text : String} (h : Naming.isWordText text = true) :
    isPlain text = true := by
  refine isPlain_of_isSpelled fun c hc => ?_
  rcases Naming.isWordText_iff.1 h c hc with hc | rfl
  · simp [isSpelled, hc]
  · rfl

theorem uncut_of_isSpelled {cs : List Char} (h : ∀ c ∈ cs, isSpelled c = true) (depth : ℕ) :
    Uncut depth depth (cs.map .char) := by
  have hsub : ['(', '[', '\x7b', ')', ']', '\x7d', ','] ⊆ marks := by simp [marks]
  exact uncut_chars depth fun c hc hmark => not_mem_marks (h c hc) (hsub hmark)

theorem wordChar?_of_isSpelled {c : Char} (h : isSpelled c = true) :
    wordChar? (.char c) = some c := by
  refine if_pos ?_
  simp only [isSpelled, List.contains_cons, List.contains_nil, Bool.or_eq_true, beq_iff_eq] at h
  simp only [isWord, List.contains_cons, List.contains_nil, Bool.or_eq_true, beq_iff_eq]
  tauto

theorem mapM_map_eq_some {α β γ : Type} {f : β → Option γ} {g : α → β} {h : α → γ} {xs : List α}
    (heq : ∀ x ∈ xs, f (g x) = some (h x)) : (xs.map g).mapM f = some (xs.map h) := by
  induction xs with
  | nil => rfl
  | cons x xs ih =>
    rw [List.forall_mem_cons] at heq
    rw [List.map_cons, List.mapM_cons, heq.1, ih heq.2]
    rfl

theorem atom?_of_isSpelling {text : String} (h : isSpelling text = true) :
    atom? (text.toList.map .char) = some (.word text) := by
  have hmap := mapM_map_eq_some (g := Piece.char) (h := id) fun c hc =>
    wordChar?_of_isSpelled (isSpelled_of_mem h c hc)
  have hne : (text.toList.map Piece.char).isEmpty = false := by
    simpa using (Bool.and_eq_true_iff.1 h).1
  unfold atom?
  split
  · rename_i heq
    rcases htext : text.toList with _ | ⟨c, cs⟩ <;> simp [htext] at heq
  · rw [hne, hmap]
    simp

/-- The pieces of an operand, which stands between commas. -/
structure Spells (pieces : List Piece) (operand : Operand) : Prop where
  uncut : Uncut 0 0 pieces
  head : pieces.head? ≠ some (.char ' ')
  reads : operand? pieces = some operand
  texts : pieces.filterMap Piece.text? = operand.texts

/-- A source text is read as this operand. -/
def Denotes (source : String) (operand : Operand) : Prop :=
  ∃ pieces, Reads source pieces ∧ Spells pieces operand

theorem inBrackets?_append (opening inner : List Piece) :
    inBrackets? opening (opening ++ inner ++ [.char ')']) = some inner := by
  have hopening : opening.isPrefixOf (opening ++ inner ++ [.char ')']) = true := by
    rw [List.isPrefixOf_iff_prefix, List.append_assoc]
    exact List.prefix_append opening _
  rw [inBrackets?, if_pos ⟨hopening, List.getLast?_concat⟩, List.append_assoc, List.drop_left,
    List.dropLast_concat]

theorem operand?_of_head {pieces : List Piece} (h : pieces.head? ≠ some (.char '(')) :
    operand? pieces = atom? pieces := by
  have hnone : inBrackets? [.char '('] pieces = none := by
    refine if_neg fun hboth => h ?_
    obtain ⟨rest, rfl⟩ := List.isPrefixOf_iff_prefix.1 hboth.1
    rfl
  rw [operand?, hnone]

theorem denotes_quoted (text : String) : Denotes (quoted text) (.text text) :=
  ⟨_, Text.reads_quoted text, uncut_text 0 text, by simp, rfl, rfl⟩

theorem head?_ne_of_isSpelling {text : String} (h : isSpelling text = true) {c : Char}
    (hc : c ∈ marks) (rest : List Piece) :
    (text.toList.map Piece.char ++ rest).head? ≠ some (.char c) := by
  have hspelled := isSpelled_of_mem h
  rw [isSpelling, Bool.and_eq_true] at h
  rcases hcs : text.toList with _ | ⟨d, cs⟩
  · simp_all
  · rw [List.map_cons, List.cons_append, List.head?_cons, ne_eq, Option.some.injEq,
      Piece.char.injEq]
    rintro rfl
    exact not_mem_marks (hspelled d (by simp [hcs])) hc

theorem denotes_word {text : String} (h : isSpelling text = true) : Denotes text (.word text) := by
  have hspelled := isSpelled_of_mem h
  have hhead {c : Char} (hc : c ∈ marks) : (text.toList.map Piece.char).head? ≠ some (.char c) := by
    simpa using head?_ne_of_isSpelling h hc []
  refine ⟨_, .plain (isPlain_of_isSpelled hspelled), uncut_of_isSpelled hspelled 0,
    hhead (by simp [marks]), ?_, Text.filterMap_text?_map_char text.toList⟩
  rw [operand?_of_head (hhead (by simp [marks])), atom?_of_isSpelling h]

theorem reads_intercalate {α : Type} {f : α → String} {g : α → List Piece} : ∀ {xs : List α},
    (∀ x ∈ xs, Reads (f x) (g x)) →
      Reads (", ".intercalate (xs.map f)) (comma.intercalate (xs.map g))
  | [], _ => .plain rfl
  | [x], h => by simpa using h
  | x :: y :: xs, h => by
    rw [List.forall_mem_cons] at h
    simp only [List.map_cons, String.intercalate_cons_cons, List.intercalate_cons_cons]
    have hfirst := h.1.append_plain (b := ", ") (by decide)
    have hcomma : ", ".toList.map Piece.char = comma := rfl
    have hrest := reads_intercalate h.2
    rw [hcomma] at hfirst
    rw [List.map_cons, List.map_cons] at hrest
    refine hfirst.append hrest fun _ before => ?_
    rw [List.reverse_append]
    rfl

/-! ## Tuples -/

theorem reads_brackets {inner : String} {pieces : List Piece} (h : Reads inner pieces) :
    Reads ("(" ++ inner ++ ")") ([.char '('] ++ pieces ++ [.char ')']) :=
  ((Reads.plain (a := "(") (by decide)).append h fun _ _ => rfl).append_plain (by decide)

theorem spells_brackets {inner : List Piece} {operand : Operand} (huncut : Uncut 1 1 inner)
    (h : bracketed? inner = some operand)
    (htexts : inner.filterMap Piece.text? = operand.texts) :
    Spells ([.char '('] ++ inner ++ [.char ')']) operand where
  uncut := by
    have hopen : Uncut 0 1 [.char '('] := uncut_singleton 0 _ (by simp)
    have hclose : Uncut 1 0 [.char ')'] := uncut_singleton 1 _ (by simp)
    exact (hopen.append huncut).append hclose
  head := by simp
  reads := by
    rw [operand?, inBrackets?_append]
    exact h
  texts := by
    rw [List.filterMap_append, List.filterMap_append, htexts]
    exact List.append_nil _

theorem filterMap_text?_intercalate {α : Type} (g : α → List Piece) : ∀ xs : List α,
    (comma.intercalate (xs.map g)).filterMap Piece.text?
      = xs.flatMap fun x => (g x).filterMap Piece.text?
  | [] => rfl
  | [x] => by simp
  | x :: y :: xs => by
    have hcomma : comma.filterMap Piece.text? = [] := rfl
    have hrest := filterMap_text?_intercalate g (y :: xs)
    rw [List.map_cons] at hrest
    rw [List.map_cons, List.map_cons, List.intercalate_cons_cons, List.filterMap_append,
      List.filterMap_append, hcomma, List.append_nil, hrest]
    rfl

theorem uncut_texts : ∀ ts : List String,
    Uncut 1 1 (comma.intercalate (ts.map fun t => [.text t]))
  | [] => .nil
  | [t] => by simpa using uncut_text 1 t
  | t :: u :: ts => by
    have hcomma : Uncut 1 1 comma :=
      (uncut_singleton 1 (.char ',') (by simp)).append (uncut_singleton 1 (.char ' ') (by simp))
    simp only [List.map_cons, List.intercalate_cons_cons]
    exact ((uncut_text 1 t).append hcomma).append (uncut_texts (u :: ts))

theorem bracketed?_texts {t u : String} {ts : List String} :
    bracketed? (comma.intercalate ((t :: u :: ts).map fun t => [.text t]))
      = some (.tuple ((t :: u :: ts).map .text)) := by
  have hitems : items (comma.intercalate ((t :: u :: ts).map fun t => [.text t]))
      = (t :: u :: ts).map fun t => [.text t] := by
    refine items_intercalate (by simp) fun part hpart => ?_
    obtain ⟨v, -, rfl⟩ := List.mem_map.1 hpart
    exact ⟨uncut_text 0 v, by simp⟩
  have hlast : ((t :: u :: ts).map fun t => [Piece.text t]).getLast? ≠ some [] := by
    rw [List.getLast?_map, ne_eq, Option.map_eq_some_iff]
    rintro ⟨v, -, hv⟩
    cases hv
  have hmap : ((t :: u :: ts).map fun t => [Piece.text t]).mapM atom?
      = some ((t :: u :: ts).map .text) := mapM_map_eq_some fun _ _ => rfl
  rw [bracketed?, hitems]
  simp only [List.map_cons] at hlast hmap ⊢
  rw [if_neg hlast, hmap]
  rfl

namespace Constant

theorem sources_texts (ts : List String) : sources (ts.map .text) = ts.map quoted := by
  induction ts with
  | nil => rfl
  | cons t ts ih => rw [List.map_cons, sources, source, ih, List.map_cons]

theorem source_texts_of_two {t u : String} {ts : List String} :
    (texts (t :: u :: ts)).source = "(" ++ ", ".intercalate ((t :: u :: ts).map quoted) ++ ")" := by
  rw [← sources_texts]
  rfl

end Constant

/-- A tuple of texts is read as a tuple of these texts, also if there is one or none. -/
theorem denotes_texts : ∀ ts : List String,
    Denotes (Constant.texts ts).source (.tuple (ts.map .text))
  | [] => ⟨_, reads_brackets (.plain rfl), spells_brackets .nil rfl rfl⟩
  | [t] => by
    have hinner : Reads (quoted t ++ ",") [.text t, .char ','] :=
      (Text.reads_quoted t).append_plain (by decide)
    have huncut : Uncut 1 1 [.text t, .char ','] :=
      (uncut_text 1 t).append (uncut_singleton 1 _ (by simp))
    have hsource : (Constant.texts [t]).source = "(" ++ (quoted t ++ ",") ++ ")" := by
      simp [Constant.texts, Constant.source, String.append_assoc]
    rw [hsource]
    exact ⟨_, reads_brackets hinner, spells_brackets huncut rfl rfl⟩
  | t :: u :: ts => by
    rw [Constant.source_texts_of_two]
    refine ⟨_, reads_brackets (reads_intercalate fun v _ => Text.reads_quoted v),
      spells_brackets (uncut_texts _) bracketed?_texts ?_⟩
    rw [filterMap_text?_intercalate, Operand.texts, Operand.allTexts_map_text]
    simp [Piece.text?]

/-! ## Calls -/

theorem argument?_append {keyword : String} {pieces : List Piece} {operand : Operand}
    (hkeyword : isSpelling keyword = true) (h : Spells pieces operand) :
    argument? (keyword.toList.map .char ++ .char '=' :: pieces) = some (keyword, operand) := by
  have hkey : ∀ p ∈ keyword.toList.map Piece.char, (p != .char '=') = true := by
    intro p hp
    obtain ⟨c, hc, rfl⟩ := List.mem_map.1 hp
    have hmarks := not_mem_marks (isSpelled_of_mem hkeyword c hc)
    rw [bne_iff_ne, ne_eq, Piece.char.injEq]
    rintro rfl
    simp [marks] at hmarks
  rw [argument?, List.takeWhile_append_of_pos hkey, List.dropWhile_append_of_pos hkey]
  simp [atom?_of_isSpelling hkeyword, h.reads]

/-- A call that is put together from keywords and operands is read as these. -/
theorem exists_call {α : Type} {function : String} {args : List α} {keyword source : α → String}
    {operand : α → Operand} (hfunction : isSpelling function = true) (hne : args ≠ [])
    (hkeyword : ∀ a ∈ args, isSpelling (keyword a) = true)
    (hoperand : ∀ a ∈ args, Denotes (source a) (operand a)) :
    ∃ pieces,
      Reads (function ++ "(" ++ ", ".intercalate (args.map fun a => keyword a ++ "=" ++ source a)
        ++ ")") pieces
        ∧ call? function pieces = some (args.map fun a => (keyword a, operand a))
        ∧ pieces.filterMap Piece.text? = args.flatMap fun a => (operand a).texts := by
  choose! read hread hspells using hoperand
  set part := fun a => (keyword a).toList.map Piece.char ++ .char '=' :: read a
  have hparts : ∀ a ∈ args, Reads (keyword a ++ "=" ++ source a) (part a) := by
    intro a ha
    have hplain := isPlain_of_isSpelled (isSpelled_of_mem (hkeyword a ha))
    have happend := ((Reads.plain hplain).append_plain (b := "=") (by decide)).append (hread a ha)
      fun _ before => by rw [List.reverse_append]; rfl
    rwa [List.append_assoc] at happend
  have hitems : items (comma.intercalate (args.map part)) = args.map part := by
    refine items_intercalate (by simpa using hne) fun p hp => ?_
    obtain ⟨a, ha, rfl⟩ := List.mem_map.1 hp
    have hequals : Uncut 0 0 [.char '='] := uncut_singleton 0 _ (by simp)
    exact ⟨(uncut_of_isSpelled (isSpelled_of_mem (hkeyword a ha)) 0).append
      (hequals.append (hspells a ha).uncut),
      head?_ne_of_isSpelling (hkeyword a ha) (c := ' ') (by simp [marks]) _⟩
  have harguments : (args.map part).mapM argument?
      = some (args.map fun a => (keyword a, operand a)) :=
    mapM_map_eq_some fun a ha => argument?_append (hkeyword a ha) (hspells a ha)
  have hopening : isPlain (function ++ "(") = true := by
    rw [Text.isPlain_append, isPlain_of_isSpelled (isSpelled_of_mem hfunction)]
    decide
  have hreads := ((Reads.plain hopening).append (reads_intercalate hparts) fun _ before => by
    rw [String.toList_append, List.map_append, List.reverse_append]
    rfl).append_plain (b := ")") (by decide)
  refine ⟨_, hreads, ?_, ?_⟩
  · have hinner := inBrackets?_append ((function ++ "(").toList.map .char)
      (comma.intercalate (args.map part))
    rw [call?]
    refine (congrArg (Option.bind · _) hinner).trans ?_
    rw [Option.bind_some, hitems, harguments]
  · have hpart : ∀ a ∈ args, (part a).filterMap Piece.text? = (operand a).texts := by
      intro a ha
      rw [List.filterMap_append, Text.filterMap_text?_map_char, List.nil_append,
        List.filterMap_cons_none rfl, (hspells a ha).texts]
    rw [List.filterMap_append, List.filterMap_append, Text.filterMap_text?_map_char,
      Text.filterMap_text?_map_char, List.append_nil, List.nil_append,
      filterMap_text?_intercalate]
    exact List.flatMap_congr hpart

/-! ## Rules -/

namespace Constant

mutual

/-- The operand that a constant is written as. -/
def operand : Constant → Operand
  | .none => .word "None"
  | .bool b => .word (if b then "True" else "False")
  | .number n => .word n.source
  | .text s => .text s
  | .tuple items => .tuple (operands items)

/-- The operands that constants are written as. -/
def operands : List Constant → List Operand
  | [] => []
  | c :: rest => c.operand :: operands rest

end

theorem operand_texts (ts : List String) : (texts ts).operand = .tuple (ts.map .text) := by
  rw [texts, operand]
  congr 1
  induction ts with
  | nil => rfl
  | cons t ts ih => rw [List.map_cons, operands, operand, ih, List.map_cons]

end Constant

theorem isSpelled_of_isPart {c : Char} (h : Numeral.isPart c = true) : isSpelled c = true := by
  rw [Numeral.isPart, Bool.or_eq_true] at h
  rcases h with hdigit | hmark
  · simp [isSpelled, Char.isAlphanum, hdigit]
  · simp only [List.contains_iff_mem, List.mem_cons, List.not_mem_nil, or_false] at hmark
    rcases hmark with rfl | rfl | rfl | rfl <;> rfl

theorem isSpelling_iff {text : String} : isSpelling text = true ↔
    text.toList ≠ [] ∧ ∀ c ∈ text.toList, isSpelled c = true := by
  simp [isSpelling]

theorem isSpelling_sign_append {text : String} (h : isSpelling text = true) (negative : Bool) :
    isSpelling ((if negative then "-" else "") ++ text) = true := by
  rw [isSpelling_iff] at h ⊢
  rw [String.toList_append]
  refine ⟨by simp [h.1], List.forall_mem_append.2 ⟨?_, h.2⟩⟩
  cases negative
  · exact List.forall_mem_nil _
  · exact List.forall_mem_singleton.2 rfl

theorem isSpelling_toString (i : ℤ) : isSpelling (toString i) = true := by
  have hdigits : ∀ c ∈ Numeral.digitsOf i, isSpelled c = true := fun c hc => by
    simp [isSpelled, Char.isAlphanum, Numeral.isDigit_of_mem_digitsOf hc]
  rw [isSpelling_iff, Numeral.toList_toString]
  split_ifs
  · exact ⟨List.cons_ne_nil _ _, List.forall_mem_cons.2 ⟨rfl, hdigits⟩⟩
  · exact ⟨Nat.toDigits_ne_nil, hdigits⟩

theorem isSpelling_source (n : Bound) : isSpelling n.source = true := by
  rcases n with i | ⟨negative, m, q⟩ | negative | _
  · exact isSpelling_toString i
  · obtain ⟨text, x, hwrites, -, htext⟩ := Double.exists_writes negative m q
    obtain ⟨c, hc, -⟩ := hwrites.head
    rw [Bound.source, htext]
    refine isSpelling_sign_append (isSpelling_iff.2 ⟨?_, fun d hd => ?_⟩) negative
    · rintro hnil
      simp [hnil] at hc
    · exact isSpelled_of_isPart (hwrites.parts d hd)
  · cases negative <;> decide
  · decide

/-- What a rule can be given, in the order in which it is written. -/
def ruleParameters : List String :=
  ["name", "path", "value_type", "min_count", "max_count", "min_length", "max_length", "pattern",
    "flags", "in_values", "min_inclusive", "max_inclusive", "min_exclusive", "max_exclusive",
    "has_value"]

/-- What the rule of a property is given; what is left out has no value. -/
def ruleEntries (p : PropertyModel) : List (String × Option Constant) :=
  let c := p.constraints
  let number (n : ℤ) : Constant := .number (.int n)
  ruleParameters.zip
    [some (.text p.name), some (.text p.iri), some (.text p.valueType),
      if c.minCount = 0 then none else some (number c.minCount), c.maxCount.map number,
      c.minLength.map number, c.maxLength.map number, c.pattern.map .text, c.flags.map .text,
      c.inValues.map .texts, c.minInclusive.map .number, c.maxInclusive.map .number,
      c.minExclusive.map .number, c.maxExclusive.map .number, c.hasValue.map .text]

/-- The keywords of the rule of a property, with their values. -/
def ruleKeywords (p : PropertyModel) : List (String × Constant) :=
  (ruleEntries p).filterMap fun e => e.2.map (e.1, ·)

theorem ruleExpression_eq (p : PropertyModel) : ruleExpression p
    = "PropertyRule" ++ "(" ++ ", ".intercalate ((ruleKeywords p).map fun a =>
        a.1 ++ "=" ++ a.2.source) ++ ")" := rfl

/-- A value of a rule is a text, a number or a tuple of texts. -/
inductive Constant.IsRuleValue : Constant → Prop
  | text (s : String) : IsRuleValue (.text s)
  | number (n : Bound) : IsRuleValue (.number n)
  | texts (ts : List String) : IsRuleValue (.texts ts)

theorem Constant.IsRuleValue.denotes {c : Constant} (h : c.IsRuleValue) :
    Denotes c.source c.operand := by
  cases h with
  | text s =>
    rw [source, operand]
    exact denotes_quoted s
  | number n =>
    rw [source, operand]
    exact denotes_word (isSpelling_source n)
  | texts ts =>
    rw [operand_texts]
    exact denotes_texts ts

theorem ruleEntries_values (p : PropertyModel) :
    ∀ e ∈ ruleEntries p, ∀ value ∈ e.2, value.IsRuleValue := by
  have hmap {α : Type} {f : α → Constant} (hf : ∀ y, (f y).IsRuleValue) (x : Option α) :
      ∀ value ∈ x.map f, value.IsRuleValue := by
    rintro value hvalue
    obtain ⟨y, -, rfl⟩ := Option.map_eq_some_iff.1 hvalue
    exact hf y
  have hcount : ∀ value ∈ if p.constraints.minCount = 0 then none
      else some (Constant.number (.int p.constraints.minCount)), value.IsRuleValue := by
    split_ifs
    · simp
    · exact hmap (fun _ => .number _) (some ())
  simp only [ruleEntries, ruleParameters, List.zip_cons_cons, List.zip_nil_right,
    List.forall_mem_cons]
  exact ⟨hmap .text (some _), hmap .text (some _), hmap .text (some _), hcount,
    hmap (fun _ => .number _) _, hmap (fun _ => .number _) _, hmap (fun _ => .number _) _,
    hmap .text _, hmap .text _, hmap .texts _, hmap .number _, hmap .number _, hmap .number _,
    hmap .number _, hmap .text _, List.forall_mem_nil _⟩

theorem ruleKeywords_values (p : PropertyModel) :
    ∀ a ∈ ruleKeywords p, isSpelling a.1 = true ∧ a.2.IsRuleValue := by
  have hkeys : ruleParameters.all isSpelling = true := by decide
  intro a ha
  obtain ⟨e, he, ha⟩ := List.mem_filterMap.1 ha
  obtain ⟨value, hvalue, rfl⟩ := Option.map_eq_some_iff.1 ha
  exact ⟨List.all_eq_true.1 hkeys e.1 (List.of_mem_zip he).1,
    ruleEntries_values p e he value hvalue⟩

/-- The rule of a property is read as its keywords and their values. -/
theorem exists_ruleCall (p : PropertyModel) : ∃ pieces, Reads (ruleExpression p) pieces
    ∧ call? "PropertyRule" pieces = some ((ruleKeywords p).map fun a => (a.1, a.2.operand))
    ∧ pieces.filterMap Piece.text? = (ruleKeywords p).flatMap fun a => a.2.operand.texts := by
  have hvalues := ruleKeywords_values p
  rw [ruleExpression_eq]
  exact exists_call (by decide) (List.cons_ne_nil _ _) (fun a ha => (hvalues a ha).1)
    fun a ha => (hvalues a ha).2.denotes

end ShapeForge.Emission
