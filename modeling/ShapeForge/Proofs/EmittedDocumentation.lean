import ShapeForge.Platform.Standard
import ShapeForge.Proofs.DocumentationBlocks
import ShapeForge.Proofs.EmittedTexts
import ShapeForge.Proofs.LookupOrder

/-!
# The documentation of a package

The lines of a module are its code and its blocks of documentation
(`Emission.SourceModule.lines_perm`). The text of a module has each block on lines of its own
(`Emission.render_block`), so that a block can be read where it stands.

Documentation of one line is a sentence or ends with the counts of a property, so it does not end
with a quote, whatever names and IRIs it holds. Descriptions come first and more lines follow them
(`Emission.closes_abstractAccessor`). So quotes, backslashes and line breaks never break a block.
The null character does: it is written as it is, and no source can hold it. Names and counts have
none, so it comes from a description or an IRI (`Emission.null_interfaceModule_iff`).
-/

namespace ShapeForge

namespace Emission

open Text (tripleQuote readBlock)

/-- A block of documentation: how it is indented, and what it says. -/
structure Block where
  indent : String
  doc : List String
deriving Repr, DecidableEq

/-- The lines of a block. -/
def Block.lines (b : Block) : List String := docstring b.indent b.doc

/-- The text that a block stands for. -/
def Block.value (b : Block) : String := blockText b.indent (docLines b.doc)

/-- The block of a function. -/
def Function.block (indent : String) (f : Function) : Block := ⟨indent ++ "    ", f.doc⟩

/-- The blocks of a class. -/
def Class.blocks (c : Class) : List Block :=
  c.doc.toList.map (Block.mk "    ") ++ c.methods.map (Function.block "    ")

/-- The blocks of a definition. -/
def Definition.blocks : Definition → List Block
  | .cls c => c.blocks
  | .function f => [f.block ""]
  | .assignment _ => []
  | .call _ => []

/-- The blocks of a module. -/
def SourceModule.blocks (m : SourceModule) : List Block :=
  ⟨"", m.doc⟩ :: m.definitions.flatMap Definition.blocks

/-! ## Where blocks stand -/

theorem Function.lines_perm (indent : String) (f : Function) :
    (f.lines indent).Perm (f.undocumented.lines indent ++ (f.block indent).lines) := by
  have hcode : f.undocumented.lines indent = f.decorators.map (fun d => indent ++ "@" ++ d)
      ++ [indent ++ "def " ++ f.name ++ "(" ++ ", ".intercalate f.parameters ++ ")"
        ++ (f.result.map (" -> " ++ ·)).getD "" ++ ":"]
      ++ f.body.map (indent ++ "    " ++ ·) := by
    rw [← List.append_nil (_ ++ [_])]
    rfl
  rw [hcode, Function.lines, List.append_assoc, List.append_assoc (_ ++ _)]
  exact List.perm_append_comm.append_left _

theorem methodLines_perm (methods : List Function) :
    (methodLines methods).Perm (methodLines (methods.map Function.undocumented)
      ++ (methods.map (Function.block "    ")).flatMap Block.lines) := by
  rw [methodLines, methodLines, List.flatMap_map, List.flatMap_map]
  refine List.Perm.trans ?_ (List.flatMap_append_perm methods _ _).symm
  exact List.Perm.flatMap_left _ fun f _ => (Function.lines_perm "    " f).cons ""

theorem Class.lines_perm (c : Class) :
    c.lines.Perm (c.undocumented.lines ++ c.blocks.flatMap Block.lines) := by
  have hbody := (methodLines_perm c.methods).append_left
    (c.attributes.flatMap (Assignment.lines "    "))
  have hempty := isEmpty_methodLines (c.attributes.flatMap (Assignment.lines "    ")) c.methods
  unfold methodLines at hbody hempty
  unfold Class.lines blocks
  rcases hdoc : c.doc with _ | doc
  · simp only [undocumented, hdoc, Option.map_none, hempty]
    by_cases hnone : (c.attributes.flatMap (Assignment.lines "    ")
      ++ c.methods.flatMap fun m => "" :: m.lines "    ").isEmpty = true
    · -- Without a body there are no methods, so there are no blocks.
      rw [List.isEmpty_iff.1 hnone] at hbody
      have hblocks := (List.append_eq_nil_iff.1 (List.append_eq_nil_iff.1 hbody.nil_eq.symm).2).2
      simp [hnone, hblocks]
    · simp only [hnone, Option.isNone_none, Bool.and_false, Bool.false_eq_true, if_false,
        Option.toList_none, List.map_nil, List.nil_append, List.cons_append]
      rw [List.append_assoc]
      exact hbody.cons _
  · simp only [undocumented, hdoc, Option.map_some, Option.isNone_some, Bool.false_and,
      Bool.false_eq_true, if_false, Option.toList_some, List.map_singleton, List.singleton_append,
      List.flatMap_cons]
    rw [List.perm_iff_count]
    intro line
    have hcount := hbody.count_eq line
    have hempty : docstring "    " [] = [] := rfl
    simp only [List.count_append, List.count_cons, hempty, List.count_nil, Block.lines] at hcount ⊢
    omega

theorem Definition.lines_perm : ∀ d : Definition,
    d.lines.Perm (d.undocumented.lines ++ d.blocks.flatMap Block.lines)
  | .cls c => c.lines_perm
  | .function f => by
    have h := f.lines_perm ""
    rwa [← List.flatMap_singleton Block.lines (f.block "")] at h
  | .assignment _ => by simp [undocumented, blocks]
  | .call _ => by simp [undocumented, blocks]

/-- The lines of a module are its code and its documentation. -/
theorem SourceModule.lines_perm (m : SourceModule) :
    m.lines.Perm (m.code ++ m.blocks.flatMap Block.lines) := by
  have hdefinitions : (m.definitions.flatMap fun d => "" :: "" :: d.lines).Perm
      ((m.definitions.map Definition.undocumented).flatMap (fun d => "" :: "" :: d.lines)
        ++ (m.definitions.flatMap Definition.blocks).flatMap Block.lines) := by
    rw [List.flatMap_map, List.flatMap_assoc]
    refine List.Perm.trans ?_ (List.flatMap_append_perm m.definitions _ _).symm
    exact List.Perm.flatMap_left _ fun d _ => ((Definition.lines_perm d).cons "").cons ""
  rw [List.perm_iff_count]
  intro line
  have hcount := hdefinitions.count_eq line
  have hempty : docstring "" [] = [] := rfl
  simp only [code, lines, blocks, List.flatMap_cons, List.count_append, List.count_cons, hempty,
    List.count_nil, Block.lines] at hcount ⊢
  omega

theorem Function.block_infix (indent : String) (f : Function) :
    (f.block indent).lines <:+: f.lines indent :=
  List.infix_append _ _ _

theorem infix_flatMap {α : Type} {f : α → List String} {block : List String} {l : List α} {a : α}
    (ha : a ∈ l) (h : block <:+: f a) : block <:+: l.flatMap f := by
  rw [List.flatMap_def]
  exact h.trans (List.infix_of_mem_flatten (List.mem_map_of_mem ha))

theorem Class.block_infix {c : Class} {b : Block} (hb : b ∈ c.blocks) : b.lines <:+: c.lines := by
  rcases List.mem_append.1 hb with hb | hb
  · obtain ⟨doc, hdoc, rfl⟩ := List.mem_map.1 hb
    rw [Option.mem_toList] at hdoc
    simp only [Class.lines, hdoc]
    refine List.IsInfix.trans ?_ (List.prefix_append _ _).isInfix
    exact ((List.prefix_append _ _).isInfix).trans (List.suffix_cons _ _).isInfix
  · obtain ⟨f, hf, rfl⟩ := List.mem_map.1 hb
    have hblock : (f.block "    ").lines <:+: c.methods.flatMap fun m => "" :: m.lines "    " :=
      infix_flatMap hf ((f.block_infix "    ").trans (List.suffix_cons "" _).isInfix)
    have hmethods : (c.methods.flatMap fun m => "" :: m.lines "    ") ≠ [] := by
      intro h
      cases List.flatMap_eq_nil_iff.1 h f hf
    have hbody : (c.attributes.flatMap (Assignment.lines "    ")
        ++ c.methods.flatMap fun m => "" :: m.lines "    ").isEmpty = false := by
      rw [List.isEmpty_eq_false_iff]
      exact List.append_ne_nil_of_right_ne_nil _ hmethods
    simp only [Class.lines, hbody, Bool.and_false, Bool.false_eq_true, if_false]
    exact (hblock.trans (List.suffix_append _ _).isInfix).trans (List.suffix_append _ _).isInfix

theorem Definition.block_infix {b : Block} : ∀ {d : Definition}, b ∈ d.blocks → b.lines <:+: d.lines
  | .cls _, hb => Class.block_infix hb
  | .function f, hb => by
    rw [List.mem_singleton.1 hb]
    exact f.block_infix ""
  | .assignment _, hb => absurd hb List.not_mem_nil
  | .call _, hb => absurd hb List.not_mem_nil

theorem SourceModule.block_infix {m : SourceModule} {b : Block} (hb : b ∈ m.blocks) :
    b.lines <:+: m.lines.tail := by
  rcases List.mem_cons.1 hb with rfl | hb
  · simp only [lines, List.cons_append, List.tail_cons, List.append_assoc]
    exact (List.prefix_append _ _).isInfix
  · obtain ⟨d, hd, hb⟩ := List.mem_flatMap.1 hb
    refine List.IsInfix.trans ?_ (List.suffix_append _ _).isInfix
    refine infix_flatMap hd ((Definition.block_infix hb).trans ?_)
    exact ((List.suffix_cons "" _).trans (List.suffix_cons "" _)).isInfix

/-! ## The text of a module -/

theorem dropBreaks_append {xs : List Char} {c : Char} (hlast : xs.getLast? = some c) (hc : c ≠ '\n')
    (ys : List Char) : ((xs ++ ys).reverse.dropWhile (· = '\n')).reverse
      = xs ++ ys.rdropWhile (· = '\n') := by
  obtain ⟨start, rfl⟩ := List.getLast?_eq_some_iff.1 hlast
  rw [List.reverse_append, List.dropWhile_append, List.rdropWhile]
  split_ifs with h
  · rw [List.isEmpty_iff.1 h]
    simp [hc]
  · simp

theorem exists_breaks {kept : List Char} {lines : List String}
    (hbegins : kept <+: lines.flatMap fun line => '\n' :: line.toList) :
    ∃ ys, kept ++ ['\n'] = '\n' :: ys := by
  rcases kept with _ | ⟨c, kept⟩
  · exact ⟨[], rfl⟩
  rcases lines with _ | ⟨line, lines⟩
  · simp at hbegins
  · rw [List.flatMap_cons, List.cons_append, List.cons_prefix_cons] at hbegins
    exact ⟨kept ++ ['\n'], by rw [hbegins.1]; rfl⟩

/-- A block that ends a line ends it in the text as well. -/
theorem render_block {first : String} {before block after : List String} {c : Char}
    (hlast : ("\n".intercalate block).toList.getLast? = some c) (hc : c ≠ '\n') :
    ∃ xs ys, (render (first :: (before ++ block ++ after))).toList
      = xs ++ '\n' :: (("\n".intercalate block).toList ++ '\n' :: ys) := by
  obtain ⟨line, lines, rfl⟩ : ∃ line lines, block = line :: lines := by
    refine List.exists_cons_of_ne_nil fun h => ?_
    simp [h] at hlast
  obtain ⟨start, hstart⟩ : ∃ start,
      ("\n".intercalate (first :: (before ++ line :: lines ++ after))).toList
        = start ++ '\n' :: ("\n".intercalate (line :: lines)).toList
          ++ after.flatMap fun line => '\n' :: line.toList := by
    refine ⟨first.toList ++ before.flatMap fun line => '\n' :: line.toList, ?_⟩
    simp only [toList_lines, List.flatMap_append, List.flatMap_cons, List.append_assoc,
      List.cons_append]
  have hend : (start ++ '\n' :: ("\n".intercalate (line :: lines)).toList).getLast? = some c := by
    rw [List.getLast?_append, List.getLast?_cons, hlast]
    rfl
  obtain ⟨ys, hys⟩ := exists_breaks (List.rdropWhile_prefix (· = '\n') (after.flatMap _))
  refine ⟨start, ys, ?_⟩
  rw [render, String.toList_ofList, hstart, dropBreaks_append hend hc, List.append_assoc, hys]
  simp

/-! ## Sentences -/

/-- Whether a text ends as a sentence or with something in brackets. -/
def endsSentence (text : String) : Bool := [some '.', some ')'].contains text.toList.getLast?

theorem endsSentence_iff {text : String} : endsSentence text = true ↔
    text.toList.getLast? = some '.' ∨ text.toList.getLast? = some ')' := by
  simp [endsSentence]

theorem endsSentence_append (a : String) {b : String} (h : endsSentence b = true) :
    endsSentence (a ++ b) = true := by
  rw [endsSentence_iff] at h ⊢
  rw [String.toList_append, List.getLast?_append]
  rcases h with h | h
  · exact .inl (by rw [h]; rfl)
  · exact .inr (by rw [h]; rfl)

/-- How a text ends can be read off its characters, without forming its list from the text. -/
theorem endsSentence_ofList {cs : List Char}
    (h : [some '.', some ')'].contains cs.getLast? = true) :
    endsSentence (String.ofList cs) = true := by
  rw [endsSentence, String.toList_ofList]
  exact h

theorem closes_of_endsSentence (xs : List String) {y : String} (h : endsSentence y = true) :
    Closes (xs ++ [y]) := by
  rcases endsSentence_iff.1 h with h | h
  · exact closes_of_getLast? xs h (by decide) (by decide)
  · exact closes_of_getLast? xs h (by decide) (by decide)

theorem Closes.switch {doc : List String} (h : Closes doc) (docs : Bool) :
    Closes (if docs then doc else []) := by
  split_ifs
  · exact h
  · exact closes_nil

theorem closes_sentence (docs : Bool) {y : String} (h : endsSentence y = true) :
    Closes (if docs then [y] else []) :=
  (closes_of_endsSentence [] h).switch docs

theorem closes_of_sentence {docs : Bool} {y : String} (h : endsSentence y = true) :
    ∀ doc, (if docs then some [y] else none) = some doc → Closes doc := by
  intro doc hdoc
  split_ifs at hdoc
  rw [← Option.some.inj hdoc]
  exact closes_of_endsSentence [] h

theorem closes_abstractAccessor (docs : Bool) (p : PropertyModel) :
    Closes (abstractAccessor docs p).doc :=
  (closes_of_endsSentence _ (endsSentence_append _ (endsSentence_ofList (by decide)))).switch docs

theorem closes_setter (o : Options) (c : ClassModel) (p : PropertyModel) :
    Closes (setter o c p).doc :=
  closes_sentence _ (endsSentence_append _ (endsSentence_ofList (by decide)))

/-! ## The blocks of each module -/

/-- All documentation of a module can be read. -/
def SourceModule.Closed (m : SourceModule) : Prop := ∀ b ∈ m.blocks, Closes b.doc

theorem SourceModule.closed_iff {m : SourceModule} :
    m.Closed ↔ Closes m.doc ∧ ∀ d ∈ m.definitions, ∀ b ∈ d.blocks, Closes b.doc := by
  rw [Closed, blocks, List.forall_mem_cons, List.forall_mem_flatMap]

theorem Class.closes {c : Class} (hdoc : ∀ doc, c.doc = some doc → Closes doc)
    (hmethods : ∀ f ∈ c.methods, Closes f.doc) : ∀ b ∈ c.blocks, Closes b.doc := by
  rw [blocks, List.forall_mem_append, List.forall_mem_map, List.forall_mem_map]
  exact ⟨fun doc h => hdoc doc (Option.mem_toList.1 h), hmethods⟩

variable {options : Options} {classes : List ClassModel}

theorem interfaceModule_closed (modules : List (String × String)) {c : ClassModel}
    (hc : c.description = "") : (interfaceModule options modules c).Closed := by
  have hiri : ("Class IRI: " ++ c.iri).toList.head? = some 'C' := by
    rw [String.toList_append]
    rfl
  rw [SourceModule.closed_iff]
  constructor
  · have hlines := closes_of_head? (List.cons_ne_nil (c.className ++ " interface.") [""]) hiri
      (by decide)
    exact hlines.switch options.includeDocs
  · rw [interfaceModule, List.forall_mem_singleton]
    refine Class.closes (fun doc hdoc => ?_) ?_
    · simp [hc] at hdoc
    · rw [List.forall_mem_map]
      exact fun p _ => closes_abstractAccessor options.includeDocs p

theorem wrapperSource_closed (c : ClassModel) : (wrapperSource options c).Closed := by
  rw [SourceModule.closed_iff]
  refine ⟨closes_sentence _ (endsSentence_append _ (endsSentence_ofList (by decide))), ?_⟩
  rw [wrapperSource, List.forall_mem_cons, List.forall_mem_cons, List.forall_mem_singleton]
  refine ⟨Class.closes (fun doc hdoc => by cases hdoc) ?_, ?_, List.forall_mem_nil _⟩
  · rw [List.forall_mem_cons, List.forall_mem_map]
    exact ⟨closes_nil, fun p _ => closes_nil⟩
  · exact List.forall_mem_singleton.2 closes_nil

theorem validationModule_closed : (validationModule options classes).Closed := by
  rw [SourceModule.closed_iff]
  refine ⟨closes_sentence _ (endsSentence_ofList (by decide)), ?_⟩
  rw [validationModule, List.forall_mem_append, List.forall_mem_map]
  refine ⟨fun c _ => List.forall_mem_nil _, forall_mem_optional fun _ => ?_⟩
  rw [List.forall_mem_flatMap]
  intro c _
  rw [List.forall_mem_cons, List.forall_mem_singleton]
  constructor
  · exact List.forall_mem_singleton.2
      (closes_sentence _ (endsSentence_append _ (endsSentence_ofList (by decide))))
  · exact List.forall_mem_singleton.2
      (closes_sentence _ (endsSentence_append _ (endsSentence_ofList (by decide))))

theorem dslModule_closed : (dslModule options classes).Closed := by
  rw [SourceModule.closed_iff]
  refine ⟨closes_sentence _ (endsSentence_append _ (endsSentence_ofList (by decide))), ?_⟩
  rw [dslModule, List.forall_mem_append, List.forall_mem_map, List.forall_mem_cons,
    List.forall_mem_singleton]
  refine ⟨fun c _ => Class.closes ?_ ?_, Class.closes ?_ ?_, ?_⟩
  · exact closes_of_sentence (endsSentence_append _ (endsSentence_ofList (by decide)))
  · rw [builder, List.forall_mem_append, List.forall_mem_map]
    refine ⟨fun p _ => closes_setter options c p, forall_mem_optional fun _ => ?_⟩
    exact List.forall_mem_singleton.2 (closes_sentence _ (endsSentence_ofList (by decide)))
  · exact closes_of_sentence (endsSentence_ofList (by decide))
  · rw [scope, List.forall_mem_map]
    exact fun c _ => closes_nil
  · exact List.forall_mem_singleton.2
      (closes_sentence _ (endsSentence_append _ (endsSentence_ofList (by decide))))

theorem indexModule_closed : (indexModule options classes).Closed := by
  rw [SourceModule.closed_iff]
  refine ⟨closes_sentence _ (endsSentence_append _ (endsSentence_ofList (by decide))), ?_⟩
  rw [indexModule, List.forall_mem_cons, List.forall_mem_singleton]
  constructor
  · exact List.forall_mem_singleton.2 (closes_sentence _ (endsSentence_ofList (by decide)))
  · exact List.forall_mem_nil _

theorem PackageModule.closed (hclasses : ∀ c ∈ classes, c.description = "") {name : String}
    {source : SourceModule} (h : PackageModule options classes name source) : source.Closed := by
  cases h with
  | interface hc => exact interfaceModule_closed (moduleTable classes) (hclasses _ hc)
  | wrapper _ => exact wrapperSource_closed _
  | validation => exact validationModule_closed
  | dsl => exact dslModule_closed
  | index => exact indexModule_closed

/-! ## Reading blocks -/

/-- The characters of a block, behind its indentation, are one text between triple quotes. -/
def ReadsAs (indent : String) (block : List Char) (value : String) : Prop :=
  ∃ inner, block = indent.toList ++ tripleQuote ++ inner ++ tripleQuote
    ∧ ∀ rest, readBlock (inner ++ (tripleQuote ++ rest)) = some (value.toList, rest)

theorem docLines_ne_nil {indent : String} {lines : List String} (h : docstring indent lines ≠ []) :
    docLines lines ≠ [] := by
  intro hlines
  rw [docstring, dropEmptyEnd_escaped, hlines] at h
  exact h rfl

theorem Definition.indent_of_mem_blocks {b : Block} : ∀ {d : Definition}, b ∈ d.blocks →
    b.indent = "    " ∨ b.indent = "        "
  | .cls c, hb => by
    rcases List.mem_append.1 hb with hb | hb
    · obtain ⟨doc, -, rfl⟩ := List.mem_map.1 hb
      exact .inl rfl
    · obtain ⟨f, -, rfl⟩ := List.mem_map.1 hb
      exact .inr rfl
  | .function f, hb => by
    rw [List.mem_singleton.1 hb]
    exact .inl rfl
  | .assignment _, hb => absurd hb List.not_mem_nil
  | .call _, hb => absurd hb List.not_mem_nil

theorem SourceModule.blank_indent {m : SourceModule} {b : Block} (hb : b ∈ m.blocks) :
    ∀ c ∈ b.indent.toList, c = ' ' := by
  rcases List.mem_cons.1 hb with rfl | hb
  · simp
  obtain ⟨d, -, hb⟩ := List.mem_flatMap.1 hb
  rcases Definition.indent_of_mem_blocks hb with h | h
  · simp [h]
  · simp [h]

/-- Every block that is written stands in the text on lines of its own. It can be read from there
exactly if its documentation does not hold the null character. -/
theorem SourceModule.Closed.reads_iff {m : SourceModule} (h : m.Closed) {b : Block}
    (hb : b ∈ m.blocks) (hlines : b.lines ≠ []) : ∃ before after,
      m.text.toList = before ++ '\n' :: (("\n".intercalate b.lines).toList ++ '\n' :: after)
        ∧ (ReadsAs b.indent ("\n".intercalate b.lines).toList b.value ↔
          ∀ line ∈ b.doc, '\x00' ∉ line.toList) := by
  have hindent := blank_indent hb
  have hblock := toList_docstring hindent (docLines_ne_nil hlines)
  obtain ⟨before, after, hinfix⟩ := block_infix hb
  have hlast : ("\n".intercalate b.lines).toList.getLast? = some '"' := by
    rw [Block.lines, hblock, List.getLast?_append_of_ne_nil _ (by decide : tripleQuote ≠ [])]
    rfl
  obtain ⟨xs, ys, htext⟩ := render_block hlast (by decide)
  refine ⟨xs, ys, ?_, ?_⟩
  · rw [← htext, hinfix]
    rfl
  have hnull : (∀ line ∈ b.doc, '\x00' ∉ line.toList) ↔ '\x00' ∉ b.value.toList := by
    rw [Block.value, mem_documentation_iff hindent (by decide)]
    push Not
    rfl
  rw [hnull]
  constructor
  · rintro ⟨inner, hinner, hread⟩
    rw [Block.lines, hblock, List.append_left_inj, List.append_right_inj] at hinner
    have hread := hread []
    rw [← hinner] at hread
    exact (readBlock_blockText_iff hindent (h b hb) []).1 hread
  · intro hvalue
    exact ⟨_, hblock, fun rest => (readBlock_blockText_iff hindent (h b hb) rest).2 hvalue⟩

/-! ## The null character -/

theorem null_not_mem_of_isPlain {text : String} (h : Text.isPlain text = true) :
    '\x00' ∉ text.toList := by
  intro hmem
  exact absurd (List.all_eq_true.1 h _ hmem) (by decide)

theorem isPlain_toString (i : ℤ) : Text.isPlain (toString i) = true :=
  isPlain_of_isSpelled (isSpelling_iff.1 (isSpelling_toString i)).2

theorem isPlain_countSummary (p : PropertyModel) : Text.isPlain p.countSummary = true := by
  have hgreatest :
      Text.isPlain ((p.constraints.maxCount.map toString).getD "unbounded") = true := by
    rcases p.constraints.maxCount with _ | i
    · decide +kernel
    · exact isPlain_toString i
  have hwords : Text.isPlain "minCount=" = true ∧ Text.isPlain ", maxCount=" = true := by
    decide +kernel
  change Text.isPlain ("minCount=" ++ toString p.constraints.minCount ++ ", maxCount="
    ++ (p.constraints.maxCount.map toString).getD "unbounded") = true
  rw [Text.isPlain_append, Text.isPlain_append, Text.isPlain_append, hgreatest, hwords.1, hwords.2,
    isPlain_toString]
  rfl

theorem null_append_iff {a b : String} :
    '\x00' ∉ (a ++ b).toList ↔ '\x00' ∉ a.toList ∧ '\x00' ∉ b.toList := by
  rw [String.toList_append, List.mem_append, not_or]

theorem null_abstractAccessor_iff (p : PropertyModel) :
    (∀ line ∈ (abstractAccessor true p).doc, '\x00' ∉ line.toList) ↔
      '\x00' ∉ p.description.toList ∧ '\x00' ∉ p.iri.toList := by
  have hcounts := null_not_mem_of_isPlain (isPlain_countSummary p)
  have hsummary : '\x00' ∉ ("Predicate: " ++ p.iri ++ " (" ++ p.countSummary ++ ")").toList ↔
      '\x00' ∉ p.iri.toList := by
    rw [null_append_iff, null_append_iff, null_append_iff, null_append_iff]
    simp [hcounts]
  change (∀ line ∈ (if p.description.isEmpty then [] else [p.description, ""])
    ++ ["Predicate: " ++ p.iri ++ " (" ++ p.countSummary ++ ")"], '\x00' ∉ line.toList) ↔ _
  rw [List.forall_mem_append, List.forall_mem_singleton, hsummary]
  refine and_congr_left fun _ => ?_
  split_ifs with hempty
  · simp [String.isEmpty_iff.1 hempty]
  · simp

theorem isReadable_iff {c : ClassModel} : c.isReadable options = true ↔
    (options.includeDocs = true → '\x00' ∉ c.iri.toList ∧ '\x00' ∉ c.description.toList
      ∧ ∀ p ∈ c.declared, '\x00' ∉ p.description.toList ∧ '\x00' ∉ p.iri.toList) := by
  rcases hdocs : options.includeDocs with _ | _
  · simp [ClassModel.isReadable, hdocs]
  · simp [ClassModel.isReadable, ClassModel.documented, hdocs]

theorem forall_interface_docs {P : List String → Prop} {modules : List (String × String)}
    {c : ClassModel} (hdescription : c.description = "")
    (hsupers : (emittedSupers modules c).isEmpty = c.supers.isEmpty) :
    (∀ b ∈ (interfaceModule options modules c).blocks, P b.doc) ↔
      P (if options.includeDocs then [c.className ++ " interface.", "", "Class IRI: " ++ c.iri]
        else []) ∧ ∀ p ∈ c.declared, P (abstractAccessor options.includeDocs p).doc := by
  have hmethods : (interfaceModule options modules c).definitions.flatMap Definition.blocks
      = c.declared.map fun p => (abstractAccessor options.includeDocs p).block "    " := by
    simp [interfaceModule, interfaceProperties, Definition.blocks, Class.blocks,
      ClassModel.declared, hdescription, hsupers, Function.comp_def]
  rw [SourceModule.blocks, List.forall_mem_cons, hmethods, List.forall_mem_map]
  rfl

theorem null_interfaceModule_iff {modules : List (String × String)} {c : ClassModel}
    (hname : Naming.isWordText c.className = true) (hdescription : c.description = "")
    (hsupers : (emittedSupers modules c).isEmpty = c.supers.isEmpty) :
    (∀ b ∈ (interfaceModule options modules c).blocks, ∀ line ∈ b.doc, '\x00' ∉ line.toList) ↔
      c.isReadable options = true := by
  have hclass := null_not_mem_of_isPlain (isPlain_of_isWordText hname)
  rw [isReadable_iff,
    forall_interface_docs (P := fun doc => ∀ line ∈ doc, '\x00' ∉ line.toList) hdescription hsupers]
  rcases hdocs : options.includeDocs with _ | _
  · simp [abstractAccessor]
  · simp [null_abstractAccessor_iff, hclass, hdescription]

end Emission

open Emission (Block ReadsAs registryOptions)

theorem Ontology.description_of_mem_resolve {o : Ontology} {c : ClassModel}
    (hc : c ∈ o.resolve.1) : c.description = "" := by
  rw [(eq_classModel_of_mem_resolve o hc).1]
  dsimp only [Model.classModel]

theorem Package.isReadable_of_load {p : Package} (h : p.load = .ok ()) {c : ClassModel}
    (hc : c ∈ p.classes) : c.isReadable p.options = true := by
  have hload := loadInterface_of_load h c hc
  unfold ClassModel.loadInterface at hload
  split_ifs at hload with hreadable
  simpa using hreadable

/-- Every block of documentation stands in its file on lines of its own, and these and the code are
all lines of the file. A block is read back, up to blanks, exactly if what it documents does not
hold the null character; a package with an interface that holds it does not load. -/
theorem documentation_reads_back_iff [Platform] {source : String} {context : Option Json}
    {g : Rdf.Graph} {o : Ontology} {options : Options} {names : Option (List String)} {now : String}
    {report : Report} {read written : List Notice}
    (hread : (Ontology.ofGraph source context g).outcome = (.ok o, read))
    (hrun : (generate o options names now).outcome = (.ok report, written)) :
    (∀ file ∈ report.files,
      file.source.lines.Perm (file.source.code ++ file.source.blocks.flatMap Block.lines)
        ∧ ∀ b ∈ file.source.blocks, b.lines ≠ [] → ∃ before after,
          file.content.toList
              = before ++ '\n' :: (("\n".intercalate b.lines).toList ++ '\n' :: after)
            ∧ (ReadsAs b.indent ("\n".intercalate b.lines).toList b.value ↔
              ∀ line ∈ b.doc, '\x00' ∉ line.toList))
      ∧ ∀ c ∈ report.classes,
        ((∀ b ∈ (Emission.interfaceModule options (Emission.moduleTable report.classes) c).blocks,
            ∀ line ∈ b.doc, '\x00' ∉ line.toList) ↔ c.isReadable options = true)
          ∧ ((Package.mk options report.classes).load = .ok () → c.isReadable options = true) := by
  obtain ⟨generators, files, -, -, hemit, hreport, -⟩ := generate_ok_iff.1 hrun
  have hmodels : report.classes = o.resolve.1 := by rw [hreport]
  refine ⟨fun file hfile => ⟨file.source.lines_perm, fun b hb hlines => ?_⟩, fun c hc => ⟨?_, ?_⟩⟩
  · rw [hreport] at hfile
    obtain ⟨name, -, hmodule⟩ := exists_packageModule hemit hfile
    have hclosed := hmodule.closed fun c hc => Ontology.description_of_mem_resolve hc
    exact hclosed.reads_iff hb hlines
  · rw [hmodels] at hc ⊢
    have hname := (Ontology.spelled_names (Ontology.isWordText_of_mem_classes hread) hc).className
    exact Emission.null_interfaceModule_iff hname (Ontology.description_of_mem_resolve hc)
      (Ontology.emittedSupers_isEmpty hc)
  · exact fun hload => Package.isReadable_of_load hload hc

/-- A class with two shapes. The description of the first property holds quotes, a backslash and a
line break, and that of the second the null character. -/
def describedGraph : Rdf.Graph where
  triples :=
    [⟨.iri "ps", .iri Rdf.rdfType, .iri (Rdf.sh "NodeShape")⟩,
     ⟨.iri "ps", .iri (Rdf.sh "targetClass"), .iri "http://e/P"⟩,
     ⟨.iri "ps", .iri (Rdf.sh "property"), .iri "q"⟩,
     ⟨.iri "q", .iri (Rdf.sh "path"), .iri "http://e/q"⟩,
     ⟨.iri "q", .iri (Rdf.sh "description"), .literal ⟨"\"\"\"\"\n\\\"\"", none, none⟩⟩,
     ⟨.iri "pt", .iri Rdf.rdfType, .iri (Rdf.sh "NodeShape")⟩,
     ⟨.iri "pt", .iri (Rdf.sh "targetClass"), .iri "http://e/P"⟩,
     ⟨.iri "pt", .iri (Rdf.sh "property"), .iri "r"⟩,
     ⟨.iri "r", .iri (Rdf.sh "path"), .iri "http://e/r"⟩,
     ⟨.iri "r", .iri (Rdf.sh "description"), .literal ⟨"\x00", none, none⟩⟩]

def describedOntology : Ontology where
  shapes :=
    [⟨"ps", "http://e/P",
      [{ path := "http://e/q", name := "q", description := "\"\"\"\"\n\\\"\"" }]⟩,
     ⟨"pt", "http://e/P", [{ path := "http://e/r", name := "r", description := "\x00" }]⟩]
  context := {}
  classes := [⟨"http://e/P", "P", []⟩]
  source := "shapes"

/-- The documentation of the first property. -/
def quotedBlock : Block where
  indent := "        "
  doc := ["\"\"\"\"\n\\\"\"", "", "Predicate: http://e/q (minCount=0, maxCount=unbounded)"]

/-- The documentation of the second property. -/
def nullBlock : Block where
  indent := "        "
  doc := ["\x00", "", "Predicate: http://e/r (minCount=0, maxCount=unbounded)"]

section

attribute [local instance] Platform.standard

/-- The first block is read back, the second one is not, and the package does not load. -/
theorem null_description_not_read : ∃ report written,
    (Ontology.ofGraph "shapes" none describedGraph).outcome = (.ok describedOntology, [])
      ∧ (generate describedOntology registryOptions none "").outcome = (.ok report, written)
      ∧ (Package.mk registryOptions report.classes).load ≠ .ok ()
      ∧ ∃ file ∈ report.files, quotedBlock ∈ file.source.blocks ∧ nullBlock ∈ file.source.blocks
        ∧ ReadsAs "        "
          ("        \"\"\"\\\"\\\"\\\"\" \\\\\"\"\n\n"
            ++ "        Predicate: http://e/q (minCount=0, maxCount=unbounded)\n"
            ++ "        \"\"\"").toList
          ("\"\"\"\" \\\"\"\n\n"
            ++ "        Predicate: http://e/q (minCount=0, maxCount=unbounded)\n"
            ++ "        ")
        ∧ ¬ ReadsAs "        " ("\n".intercalate nullBlock.lines).toList nullBlock.value := by
  have hread : (Ontology.ofGraph "shapes" none describedGraph).outcome
      = (.ok describedOntology, []) :=
    Ontology.ofGraph_of_shapes (by decide +kernel) (by decide +kernel) rfl rfl
  have hready : describedOntology.isWalkable = true
      ∧ Emission.checkDslNames registryOptions describedOntology.evaluate = .ok ()
      ∧ Emission.IsWritten registryOptions describedOntology.evaluate := by
    decide +kernel
  have hclass : ∃ c ∈ describedOntology.evaluate, c.isReadable registryOptions = false
      ∧ quotedBlock ∈ (Emission.interfaceModule registryOptions
        (Emission.moduleTable describedOntology.evaluate) c).blocks
      ∧ nullBlock ∈ (Emission.interfaceModule registryOptions
        (Emission.moduleTable describedOntology.evaluate) c).blocks := by
    decide +kernel
  have htext : "\n".intercalate quotedBlock.lines
      = "        \"\"\"\\\"\\\"\\\"\" \\\\\"\"\n\n"
        ++ "        Predicate: http://e/q (minCount=0, maxCount=unbounded)\n"
        ++ "        \"\"\"" := by
    decide +kernel
  have hvalue : quotedBlock.value = "\"\"\"\" \\\"\"\n\n"
      ++ "        Predicate: http://e/q (minCount=0, maxCount=unbounded)\n"
      ++ "        " := by
    decide +kernel
  rw [← Ontology.resolve_eq_evaluate] at hready hclass
  obtain ⟨c, hc, hunreadable, hquoted, hnull⟩ := hclass
  obtain ⟨report, written, hrun⟩ := generate_default_iff.2 hready
  obtain ⟨generators, files, -, hgenerators, hemit, hreport, -⟩ := generate_ok_iff.1 hrun
  cases hgenerators
  obtain ⟨file, hfile, -, hsource⟩ := exists_file_of_packageModule hemit (.interface hc)
  have hmem : file ∈ report.files := by
    rw [hreport]
    exact hfile
  have hmodel : c ∈ report.classes := by
    rw [hreport]
    exact hc
  rw [← hsource] at hquoted hnull
  obtain ⟨hfiles, hclasses⟩ := documentation_reads_back_iff hread hrun
  obtain ⟨-, -, -, hquotedReads⟩ := (hfiles file hmem).2 quotedBlock hquoted (by decide +kernel)
  obtain ⟨-, -, -, hnullReads⟩ := (hfiles file hmem).2 nullBlock hnull (by decide +kernel)
  rw [htext, hvalue] at hquotedReads
  refine ⟨report, written, hread, hrun, fun hload => ?_, file, hmem, hquoted, hnull,
    hquotedReads.2 (by decide +kernel), fun h => ?_⟩
  · rw [(hclasses c hmodel).2 hload] at hunreadable
    cases hunreadable
  · exact absurd (hnullReads.1 h) (by decide +kernel)

end

end ShapeForge
