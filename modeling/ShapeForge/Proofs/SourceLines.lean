import ShapeForge.Emission.Source
import ShapeForge.Proofs.Identifier
import ShapeForge.Proofs.TextConstants

/-!
# The text constants of a module

The code of a module is its lines without documentation (`Emission.SourceModule.code`); they are
lines of the module (`Emission.SourceModule.code_sublist`). Its text constants are read line by
line, and each part of a module contributes those of its own values: imports have none, an
assignment has those of what is assigned, a function those of its body.
-/

namespace ShapeForge.Emission

open Text (isPlain opensConstant Shows texts? textsOf? textsOf?_nil textsOf?_append
  textsOf?_flatMap textsOf?_map textsOf?_plain textsOf?_singleton)

/-! ## Code without documentation -/

/-- A function without its documentation. -/
def Function.undocumented (f : Function) : Function := { f with doc := [] }

/-- A class without documentation. -/
def Class.undocumented (c : Class) : Class :=
  { c with doc := c.doc.map fun _ => [], methods := c.methods.map Function.undocumented }

/-- A definition without documentation. -/
def Definition.undocumented : Definition → Definition
  | .cls c => .cls c.undocumented
  | .function f => .function f.undocumented
  | d => d

/-- The lines of a module without its documentation. -/
def SourceModule.code (m : SourceModule) : List String :=
  lines { m with doc := [], definitions := m.definitions.map Definition.undocumented }

theorem Function.undocumented_sublist (indent : String) (f : Function) :
    (f.undocumented.lines indent).Sublist (f.lines indent) :=
  ((List.Sublist.refl _).append (List.nil_sublist _)).append (.refl _)

/-- The lines of the methods of a class. -/
def methodLines (methods : List Function) : List String :=
  methods.flatMap fun m => "" :: m.lines "    "

theorem methodLines_sublist (methods : List Function) :
    (methodLines (methods.map Function.undocumented)).Sublist (methodLines methods) := by
  rw [methodLines, List.flatMap_map]
  exact List.Sublist.flatMap_right methods fun f _ => (f.undocumented_sublist "    ").cons_cons ""

theorem isEmpty_methodLines (lines : List String) (methods : List Function) :
    (lines ++ methodLines (methods.map Function.undocumented)).isEmpty
      = (lines ++ methodLines methods).isEmpty := by
  rcases methods with _ | ⟨f, methods⟩
  · rfl
  · rw [Bool.eq_iff_iff, List.isEmpty_iff, List.isEmpty_iff]
    simp [methodLines]

theorem Class.undocumented_sublist (c : Class) : c.undocumented.lines.Sublist c.lines := by
  have hbody := (List.Sublist.refl (c.attributes.flatMap (Assignment.lines "    "))).append
    (methodLines_sublist c.methods)
  have hempty := isEmpty_methodLines (c.attributes.flatMap (Assignment.lines "    ")) c.methods
  unfold Class.lines
  refine List.Sublist.append (.cons_cons _ ?_) ?_
  · rcases hdoc : c.doc with _ | doc
    · simp [undocumented, hdoc]
    · simp only [undocumented, hdoc, Option.map_some]
      exact (List.nil_sublist _).append (.refl _)
  · simp only [undocumented, Option.isNone_map]
    unfold methodLines at hbody hempty
    rw [hempty]
    split_ifs
    · exact .refl _
    · exact hbody

theorem Definition.undocumented_sublist : ∀ d : Definition, d.undocumented.lines.Sublist d.lines
  | .cls c => c.undocumented_sublist
  | .function f => f.undocumented_sublist ""
  | .assignment _ => .refl _
  | .call _ => .refl _

/-- The code of a module is among its lines. -/
theorem SourceModule.code_sublist (m : SourceModule) : m.code.Sublist m.lines := by
  unfold code lines
  refine List.Sublist.append (.append (.append (.append (.cons_cons _ ?_) (.refl _)) (.refl _))
    (.refl _)) ?_
  · exact List.nil_sublist _
  · rw [List.flatMap_map]
    exact List.Sublist.flatMap_right _ fun d _ =>
      (d.undocumented_sublist.cons_cons "").cons_cons ""

/-! ## Imports -/

/-- All texts of an import are plain. -/
structure Import.Plain (i : Import) : Prop where
  origin : isPlain i.origin.text = true
  names : ∀ name ∈ i.names, isPlain name = true

theorem Import.Plain.lines {i : Import} (h : i.Plain) : ∀ line ∈ i.lines, isPlain line = true := by
  unfold Import.lines
  dsimp only
  split_ifs
  · rw [List.forall_mem_append, List.forall_mem_cons, List.forall_mem_map,
      List.forall_mem_singleton]
    refine ⟨⟨?_, fun name hname => ?_⟩, by decide⟩
    · simp only [Text.isPlain_append, h.origin]
      decide
    · simp only [Text.isPlain_append, h.names name hname]
      decide
  · rw [List.forall_mem_singleton]
    have hnames := Text.isPlain_intercalate h.names
    simp only [Text.isPlain_append, h.origin, hnames]
    decide

/-- All imports of a module are plain. -/
structure SourceModule.PlainImports (m : SourceModule) : Prop where
  imports : ∀ group ∈ m.imports, ∀ i ∈ group, i.Plain
  deferred : ∀ i ∈ m.deferred, i.Plain

theorem isPlain_of_mem_importLines {groups : List (List Import)}
    (h : ∀ group ∈ groups, ∀ i ∈ group, i.Plain) :
    ∀ line ∈ SourceModule.importLines groups, isPlain line = true := by
  intro line hline
  rw [SourceModule.importLines] at hline
  rcases Naming.mem_intercalate hline with hline | ⟨lines, hlines, hline⟩
  · rw [List.mem_singleton.1 hline]
    decide
  · obtain ⟨group, hgroup, rfl⟩ := List.mem_map.1 hlines
    obtain ⟨i, hi, hline⟩ := List.mem_flatMap.1 hline
    exact (h group hgroup i hi).lines line hline

theorem textsOf?_importLines {m : SourceModule} (h : m.PlainImports) :
    textsOf? (SourceModule.importLines m.imports ++ (if m.deferred.isEmpty then []
      else "" :: "if TYPE_CHECKING:" :: (m.deferred.flatMap Import.lines).map ("    " ++ ·)))
      = some [] := by
  refine textsOf?_plain (List.forall_mem_append.2 ⟨isPlain_of_mem_importLines h.imports, ?_⟩)
  split_ifs
  · exact List.forall_mem_nil _
  · rw [List.forall_mem_cons, List.forall_mem_cons, List.forall_mem_map]
    refine ⟨by decide, by decide, fun line hline => ?_⟩
    obtain ⟨i, hi, hline⟩ := List.mem_flatMap.1 hline
    rw [Text.isPlain_append, (h.deferred i hi).lines line hline]
    decide

/-! ## Assignments -/

section Assignments

variable {indent name : String} {type : Option String} (hindent : isPlain indent = true)
  (hname : isPlain name = true) (htype : ∀ t ∈ type, isPlain t = true)

include hindent hname htype

theorem opensConstant_assignment :
    opensConstant (indent ++ name ++ (type.map (": " ++ ·)).getD "" ++ " = ") = true := by
  refine Text.opensConstant_append ?_ (by decide)
  rw [Text.isPlain_append, Text.isPlain_append, hindent, hname]
  rcases type with _ | t
  · decide
  · simp only [Option.map_some, Option.getD_some, Text.isPlain_append, htype t rfl]
    decide

theorem textsOf?_inline {text : String} {ts : List String} (h : Shows text ts) :
    textsOf? (Assignment.lines indent { name, type, value := .inline text }) = some ts :=
  textsOf?_singleton (h.after (opensConstant_assignment hindent hname htype)).texts?

theorem textsOf?_entries {α : Type} {opening closing : String} {xs : List α} {f : α → String}
    {g : α → List String} (hopening : isPlain opening = true) (hclosing : isPlain closing = true)
    (h : ∀ x ∈ xs, Shows (f x) (g x)) :
    textsOf? (Assignment.lines indent { name, type, value := .entries opening (xs.map f) closing })
      = some (xs.flatMap g) := by
  have hstart := opensConstant_assignment hindent hname htype
  have hitem : ∀ x ∈ xs, texts? (indent ++ "    " ++ f x ++ ",") = some (g x) := fun x hx =>
    (((h x hx).after (Text.opensConstant_append hindent (by decide))).append_plain
      (by decide)).texts?
  have hitems : textsOf? ((xs.map f).map fun item => indent ++ "    " ++ item ++ ",")
      = some (xs.flatMap g) := by
    rw [List.map_map]
    exact textsOf?_map hitem
  have hopen : texts? (indent ++ name ++ (type.map (": " ++ ·)).getD "" ++ " = " ++ opening)
      = some [] := ((Shows.plain hopening).after hstart).texts?
  have hclose : texts? (indent ++ closing) = some [] :=
    (Shows.plain (by rw [Text.isPlain_append, hindent, hclosing]; rfl)).texts?
  have hlines := textsOf?_append (textsOf?_append (textsOf?_singleton hopen) hitems)
    (textsOf?_singleton hclose)
  rwa [List.nil_append, List.append_nil] at hlines

end Assignments

/-! ## Functions and classes -/

/-- All texts of the head of a function are plain. -/
structure Function.PlainHead (f : Function) : Prop where
  decorators : ∀ d ∈ f.decorators, isPlain d = true
  name : isPlain f.name = true
  parameters : ∀ p ∈ f.parameters, isPlain p = true
  result : ∀ r ∈ f.result, isPlain r = true

theorem textsOf?_function {indent : String} {f : Function} {ts : List String}
    (hindent : isPlain indent = true) (h : f.PlainHead)
    (hbody : textsOf? (f.body.map (indent ++ "    " ++ ·)) = some ts) :
    textsOf? (f.undocumented.lines indent) = some ts := by
  have hdecorators : textsOf? (f.decorators.map fun d => indent ++ "@" ++ d) = some [] := by
    refine textsOf?_plain (List.forall_mem_map.2 fun d hd => ?_)
    simp only [Text.isPlain_append, hindent, h.decorators d hd]
    decide
  have hhead : isPlain (indent ++ "def " ++ f.name ++ "(" ++ ", ".intercalate f.parameters ++ ")"
      ++ (f.result.map (" -> " ++ ·)).getD "" ++ ":") = true := by
    have hparameters := Text.isPlain_intercalate h.parameters
    have hresult : isPlain ((f.result.map (" -> " ++ ·)).getD "") = true := by
      rcases hr : f.result with _ | r
      · rfl
      · rw [Option.map_some, Option.getD_some, Text.isPlain_append, h.result r hr]
        decide
    simp only [Text.isPlain_append, hindent, h.name, hparameters, hresult]
    decide
  have hdoc : docstring (indent ++ "    ") [] = [] := rfl
  have hlines := textsOf?_append (textsOf?_append hdecorators
    (textsOf?_singleton (Shows.plain hhead).texts?)) hbody
  unfold Function.lines Function.undocumented
  rwa [hdoc, List.append_nil]

/-- A function has no texts if its head and its body are plain. -/
theorem textsOf?_plainFunction {indent : String} {f : Function} (hindent : isPlain indent = true)
    (hhead : f.PlainHead) (hbody : ∀ line ∈ f.body, isPlain line = true) :
    textsOf? (f.undocumented.lines indent) = some [] := by
  refine textsOf?_function hindent hhead (textsOf?_plain ?_)
  rw [List.forall_mem_map]
  intro line hline
  rw [Text.isPlain_append, Text.isPlain_append, hindent, hbody line hline]
  decide

theorem textsOf?_body {indent line : String} {ts : List String} (hindent : isPlain indent = true)
    (h : Shows line ts) : textsOf? ([line].map (indent ++ "    " ++ ·)) = some ts :=
  textsOf?_singleton (h.after (Text.opensConstant_append hindent (by decide))).texts?

theorem textsOf?_methods {α : Type} {xs : List α} {f : α → Function} {g : α → List String}
    (h : ∀ x ∈ xs, textsOf? ((f x).undocumented.lines "    ") = some (g x)) :
    textsOf? (methodLines ((xs.map f).map Function.undocumented)) = some (xs.flatMap g) := by
  have hblank : textsOf? [""] = some [] := textsOf?_plain (by decide)
  rw [methodLines, List.map_map, List.flatMap_map]
  exact textsOf?_flatMap fun x hx => textsOf?_append hblank (h x hx)

theorem textsOf?_methods_append {fs gs : List Function} {ts us : List String}
    (hfs : textsOf? (methodLines (fs.map Function.undocumented)) = some ts)
    (hgs : textsOf? (methodLines (gs.map Function.undocumented)) = some us) :
    textsOf? (methodLines ((fs ++ gs).map Function.undocumented)) = some (ts ++ us) := by
  rw [methodLines, List.map_append, List.flatMap_append]
  exact textsOf?_append hfs hgs

theorem textsOf?_method {f : Function} {ts : List String}
    (h : textsOf? (f.undocumented.lines "    ") = some ts) :
    textsOf? (methodLines ([f].map Function.undocumented)) = some ts := by
  have hblank : textsOf? [""] = some [] := textsOf?_plain (by decide)
  rw [methodLines, List.map_singleton, List.flatMap_singleton]
  exact textsOf?_append hblank h

theorem textsOf?_class {c : Class} {ts us : List String} (hname : isPlain c.name = true)
    (hbases : ∀ b ∈ c.bases, isPlain b = true)
    (hattributes : textsOf? (c.attributes.flatMap (Assignment.lines "    ")) = some ts)
    (hmethods : textsOf? (methodLines (c.methods.map Function.undocumented)) = some us) :
    textsOf? c.undocumented.lines = some (ts ++ us) := by
  have hhead : isPlain ("class " ++ c.name ++ "(" ++ ", ".intercalate c.bases ++ "):") = true := by
    have hnames := Text.isPlain_intercalate hbases
    simp only [Text.isPlain_append, hname, hnames]
    decide
  have hbody := textsOf?_append hattributes hmethods
  unfold methodLines at hbody
  unfold Class.lines Class.undocumented
  rw [← List.nil_append (ts ++ us)]
  rcases c.doc with _ | doc
  · refine textsOf?_append (textsOf?_plain (List.forall_mem_singleton.2 hhead)) ?_
    simp only [Option.map_none, Option.isNone_none, Bool.true_and]
    split_ifs with hempty
    · -- A class without a body has nothing to read.
      rw [List.isEmpty_iff] at hempty
      rw [hempty] at hbody
      rw [← Option.some.inj hbody]
      exact textsOf?_plain (by decide)
    · exact hbody
  · refine textsOf?_append (textsOf?_plain (List.forall_mem_cons.2 ⟨hhead, ?_⟩)) hbody
    refine List.forall_mem_append.2 ⟨List.forall_mem_nil _, ?_⟩
    split_ifs
    · exact List.forall_mem_nil _
    · decide

/-! ## Modules -/

/-- The lines of definitions without documentation. -/
def definitionLines (definitions : List Definition) : List String :=
  definitions.flatMap fun d => "" :: "" :: d.undocumented.lines

theorem textsOf?_definitionLines {α : Type} {xs : List α} {f : α → Definition}
    {g : α → List String} (h : ∀ x ∈ xs, textsOf? (f x).undocumented.lines = some (g x)) :
    textsOf? (definitionLines (xs.map f)) = some (xs.flatMap g) := by
  have hblank : textsOf? ["", ""] = some [] := textsOf?_plain (by decide)
  rw [definitionLines, List.flatMap_map]
  exact textsOf?_flatMap fun x hx => textsOf?_append hblank (h x hx)

theorem textsOf?_definitionLines_cons {d : Definition} {ds : List Definition} {ts us : List String}
    (hd : textsOf? d.undocumented.lines = some ts) (hds : textsOf? (definitionLines ds) = some us) :
    textsOf? (definitionLines (d :: ds)) = some (ts ++ us) := by
  have hblank : textsOf? ["", ""] = some [] := textsOf?_plain (by decide)
  exact textsOf?_append (textsOf?_append hblank hd) hds

theorem textsOf?_definitionLines_singleton {d : Definition} {ts : List String}
    (h : textsOf? d.undocumented.lines = some ts) : textsOf? (definitionLines [d]) = some ts := by
  rw [← List.append_nil ts]
  exact textsOf?_definitionLines_cons h textsOf?_nil

theorem textsOf?_definitionLines_append {ds es : List Definition} {ts us : List String}
    (hds : textsOf? (definitionLines ds) = some ts)
    (hes : textsOf? (definitionLines es) = some us) :
    textsOf? (definitionLines (ds ++ es)) = some (ts ++ us) := by
  rw [definitionLines, List.flatMap_append]
  exact textsOf?_append hds hes

theorem textsOf?_code {m : SourceModule} {ts : List String} (himports : m.PlainImports)
    (h : textsOf? (definitionLines m.definitions) = some ts) : textsOf? m.code = some ts := by
  have hheader : textsOf? [SourceModule.header, "", "from __future__ import annotations", ""]
      = some [] := by decide
  have hlines := textsOf?_append (textsOf?_append hheader (textsOf?_importLines himports)) h
  rw [List.nil_append, List.nil_append, ← List.append_assoc] at hlines
  unfold SourceModule.code SourceModule.lines
  rwa [List.flatMap_map]

end ShapeForge.Emission
