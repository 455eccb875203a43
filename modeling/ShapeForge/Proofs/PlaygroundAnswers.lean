import ShapeForge.Platform.Standard
import ShapeForge.Playground
import ShapeForge.Proofs.ReadingFaults

/-!
# Answers of the playground

A request is answered with its report, or with the reason why there is none; but four faults of its
texts are passed on (`Request.Escapes`): a number out of range in the shapes, a context that is
nested too deep, a term definition of the context whose type or identifier is no text, and a
hierarchy of classes that is too deep to be walked. They are passed on exactly if nothing before
them stops the request (`Request.failure_passed_on_iff`).
-/

namespace ShapeForge

/-! ## Failures of what is read -/

namespace Noted

variable {ε ε' α β : Type}

theorem failure?_adapt (f : ε → ε') (x : Noted ε α) (s : List Notice) :
    failure? (ExceptT.adapt f x) s = (x.failure? s).map f := by
  rw [failure?, failure?, after_adapt]
  rcases x.after s with ⟨e | a, t⟩ <;> rfl

theorem after_tryCatch_of_ok {x : Noted ε α} {a : α} {s t : List Notice} (f : ε → Noted ε α)
    (h : x.after s = (.ok a, t)) : (tryCatch x f).after s = (.ok a, t) := by
  rw [after] at h
  simp only [after, tryCatch, tryCatchThe, MonadExceptOf.tryCatch, ExceptT.tryCatch, ExceptT.run_mk,
    StateT.run_bind]
  rw [show StateT.run x s = (.ok a, t) from h]
  rfl

theorem after_tryCatch_of_error {x : Noted ε α} {e : ε} {s t : List Notice} (f : ε → Noted ε α)
    (h : x.after s = (.error e, t)) : (tryCatch x f).after s = (f e).after t := by
  rw [after] at h
  simp only [after, tryCatch, tryCatchThe, MonadExceptOf.tryCatch, ExceptT.tryCatch, ExceptT.run_mk,
    StateT.run_bind]
  rw [show StateT.run x s = (.error e, t) from h]
  rfl

end Noted

theorem RunError.answer?_eq_none_iff {e : RunError} : e.answer? = none ↔
    e = .ontology (.shape .overflow)
      ∨ (∃ source, e = .ontology (.context source .notText)
        ∨ e = .ontology (.context source .tooDeep))
      ∨ e = .generation .tooDeep := by
  constructor
  · intro h
    rcases e with errors | (fault | ⟨source, fault⟩) | fault
    · cases h
    · cases fault with
      | overflow => exact .inl rfl
      | _ => cases h
    · cases fault with
      | notText => exact .inr (.inl ⟨source, .inl rfl⟩)
      | tooDeep => exact .inr (.inl ⟨source, .inr rfl⟩)
      | _ => cases h
    · cases fault with
      | tooDeep => exact .inr (.inr rfl)
      | _ => cases h
  · rintro (rfl | ⟨source, rfl | rfl⟩ | rfl) <;> rfl

/-! ## Failures of what is generated -/

namespace Emission

variable {options : Options} {classes : List ClassModel}

theorem checkDslNames_ne_tooDeep : checkDslNames options classes ≠ .error .tooDeep := by
  unfold checkDslNames
  dsimp only
  split_ifs <;> simp

theorem Generator.run_ne_tooDeep (g : Generator) : g.run options classes ≠ .error .tooDeep := by
  intro h
  have hwrite : g.write options classes ≠ .error .tooDeep := by
    unfold Generator.write
    split_ifs <;> simp
  unfold Generator.run at h
  split_ifs at h
  · rcases bind_error_iff.1 h with h | ⟨_, -, h⟩
    · exact checkDslNames_ne_tooDeep h
    · exact hwrite h
  · exact hwrite h

theorem emit_ne_tooDeep (generators : List Generator) :
    emit options classes generators ≠ .error .tooDeep := by
  induction generators with
  | nil => exact fun h => by cases h
  | cons g generators ih =>
    rw [emit_cons]
    exact fun h => (of_append_error h).elim g.run_ne_tooDeep ih

end Emission

/-- A package is refused for the depth of its hierarchy before anything else. -/
theorem generate_tooDeep_iff [Platform] {o : Ontology} {options : Options} {now : String}
    (s : List Notice) :
    (generate o options none now).failure? s = some .tooDeep ↔ o.isWalkable = false := by
  rw [generate, Noted.failure?_bind_eq_some_iff]
  by_cases hwalk : o.isWalkable = true
  · refine iff_of_false ?_ (by simp [hwalk])
    rintro (h | ⟨classes, t, -, h⟩)
    · rw [Noted.failure?, (Ontology.classModels_ok_iff (s := s)).2 ⟨hwalk, rfl, rfl⟩] at h
      cases h
    · rw [Noted.failure?_bind_eq_some_iff, Noted.failure?_liftM] at h
      rcases h with h | ⟨generators, u, -, h⟩
      · cases h
      · rw [Noted.failure?_bind_pure _ (Noted.failure?_liftM _ u), failure?_eq_some_iff] at h
        exact Emission.emit_ne_tooDeep generators h
  · refine iff_of_true (.inl ?_) (by simpa using hwalk)
    rw [Ontology.classModels, if_neg hwalk]
    rfl

namespace Ontology

open Shape (FirstFault Fault readings)

variable {source : String} {context : Option Json} {e : OntologyError}

/-- A graph has no ontology for the first fault of its shapes, or else for its context. -/
theorem ofGraph_failure_iff [Platform] {g : Rdf.Graph} (s : List Notice) :
    (ofGraph source context g).failure? s = some e ↔
      (∃ fault, FirstFault g fault ∧ e = .shape fault)
        ∨ (∀ r ∈ readings g, ∀ fault, ¬Fault g r fault)
          ∧ readContext (source ++ " (context)") context = .error e := by
  rw [ofGraph, Noted.failure?_bind_eq_some_iff, Noted.failure?_adapt, Option.map_eq_some_iff]
  refine or_congr ?_ ?_
  · simp only [Shape.failure?_shapesOf_eq_some_iff, @eq_comm _ e]
  · rw [← Shape.failure?_shapesOf_eq_none_iff s, Noted.failure?_eq_none_iff]
    have hread : ∀ shapes t, ((do
        let context ← liftM (readContext (source ++ " (context)") context)
        return { shapes, context, classes := Shape.classesOf g shapes, source }
          : Noted OntologyError Ontology).failure? t = some e
        ↔ readContext (source ++ " (context)") context = .error e) := fun shapes t => by
      rw [Noted.failure?_bind_pure _ (Noted.failure?_liftM _ t), failure?_eq_some_iff]
    constructor
    · rintro ⟨shapes, t, hshapes, h⟩
      exact ⟨⟨shapes, t, Noted.after_adapt_ok.1 hshapes⟩, (hread shapes t).1 h⟩
    · rintro ⟨⟨shapes, t, hshapes⟩, h⟩
      exact ⟨shapes, t, Noted.after_adapt_ok.2 hshapes, (hread shapes t).2 h⟩

/-- A text that is a graph is read as the graph is. -/
theorem ofText_after_of_graph [Platform] {format text : String} {g : Rdf.Graph}
    (hg : Platform.parse format text = some g) (s : List Notice) :
    (ofText source format text context).after s = (ofGraph source context g).after s := by
  rw [ofText, loadGraph_eq, hg]
  exact Noted.after_bind_of_ok _ (Noted.after_liftM _ _)

theorem ofText_after_of_no_graph [Platform] {format text : String}
    (hg : Platform.parse format text = none) (s : List Notice) :
    (ofText source format text context).after s = (.error (.shape (.unreadable source)), s) := by
  rw [ofText, loadGraph_eq, hg]
  exact Noted.after_bind_of_error _ (Noted.after_liftM _ _)

theorem ofText_failure_iff [Platform] {format text : String} (s : List Notice) :
    (ofText source format text context).failure? s = some e ↔
      Platform.parse format text = none ∧ e = .shape (.unreadable source)
        ∨ ∃ g, Platform.parse format text = some g
          ∧ ((∃ fault, FirstFault g fault ∧ e = .shape fault)
            ∨ (∀ r ∈ readings g, ∀ fault, ¬Fault g r fault)
              ∧ readContext (source ++ " (context)") context = .error e) := by
  rcases hg : Platform.parse format text with _ | g
  · rw [Noted.failure?, ofText_after_of_no_graph hg]
    simp [failure?, eq_comm]
  · rw [Noted.failure?, ofText_after_of_graph hg, ← Noted.failure?, ofGraph_failure_iff]
    simp

theorem ofText_ok_iff [Platform] {format text : String} {o : Ontology} {notices : List Notice} :
    (ofText source format text context).outcome = (.ok o, notices) ↔
      ∃ g, Platform.parse format text = some g
        ∧ (ofGraph source context g).outcome = (.ok o, notices) := by
  rcases hg : Platform.parse format text with _ | g
  · rw [Noted.outcome_eq, ofText_after_of_no_graph hg]
    simp
  · rw [Noted.outcome_eq, ofText_after_of_graph hg]
    simp [Noted.outcome_eq]

theorem ofText_overflow_iff [Platform] {format text : String} (s : List Notice) :
    (ofText source format text context).failure? s = some (.shape .overflow) ↔
      ∃ g, Platform.parse format text = some g ∧ FirstFault g .overflow := by
  have hcontext : ∀ label, readContext label context ≠ .error (.shape .overflow) := fun label => by
    rcases context with _ | document
    · simp [readContext]
    · rw [readContext]
      rcases Context.ofJson document with fault | c <;> simp [Except.mapError]
  rw [ofText_failure_iff]
  constructor
  · rintro (⟨-, he⟩ | ⟨g, hg, ⟨fault, hfault, he⟩ | ⟨-, hread⟩⟩)
    · cases he
    · cases he
      exact ⟨g, hg, hfault⟩
    · exact absurd hread (hcontext _)
  · rintro ⟨g, hg, hfault⟩
    exact .inr ⟨g, hg, .inl ⟨_, hfault, rfl⟩⟩

theorem ofText_context_iff [Platform] {format text label : String} {fault : ContextError}
    (s : List Notice) :
    (ofText source format text context).failure? s = some (.context label fault) ↔
      ∃ g, Platform.parse format text = some g ∧ (∀ r ∈ readings g, ∀ fault, ¬Fault g r fault)
        ∧ readContext (source ++ " (context)") context = .error (.context label fault) := by
  rw [ofText_failure_iff]
  constructor
  · rintro (⟨-, he⟩ | ⟨g, hg, ⟨_, -, he⟩ | h⟩)
    · cases he
    · cases he
    · exact ⟨g, hg, h⟩
  · rintro ⟨g, hg, h⟩
    exact .inr ⟨g, hg, .inr h⟩

end Ontology

namespace Playground

namespace Request

/-- The answer with a report. -/
def success (report : Report) : Json :=
  .object [("ok", .bool true), ("report", report.toJson), ("summary", .text report.table),
    ("source", .text report.dryRun)]

/-- The answer with the reason why there is no report. -/
def refusal (text : String) : Json := .object [("ok", .bool false), ("error", .text text)]

theorem answer_of_ok [Platform] {r : Request} {now : String} {report : Report}
    {notices : List Notice} (h : (r.report now).outcome = (.ok report, notices)) :
    (r.answer now).outcome = (.ok (success report), notices) := by
  rw [Noted.outcome_eq] at h ⊢
  rw [answer, Noted.after_bind_of_ok _ (Noted.after_tryCatch_of_ok _
    ((Noted.after_bind_of_ok _ h).trans rfl))]
  rfl

theorem answer_of_mendable [Platform] {r : Request} {now : String} {e : RunError} {text : String}
    {notices : List Notice} (h : (r.report now).outcome = (.error e, notices))
    (he : e.answer? = some text) : (r.answer now).outcome = (.ok (refusal text), notices) := by
  rw [Noted.outcome_eq] at h ⊢
  rw [answer, Noted.after_bind_of_ok _ ((Noted.after_tryCatch_of_error _
    (Noted.after_bind_of_error _ h)).trans (by rw [he]; rfl))]
  rfl

theorem answer_of_other [Platform] {r : Request} {now : String} {e : RunError}
    {notices : List Notice}
    (h : (r.report now).outcome = (.error e, notices)) (he : e.answer? = none) :
    (r.answer now).outcome = (.error e, notices) := by
  rw [Noted.outcome_eq] at h ⊢
  rw [answer, Noted.after_bind_of_error _ ((Noted.after_tryCatch_of_error _
    (Noted.after_bind_of_error _ h)).trans (by rw [he]; rfl))]

/-- The context of a request. -/
def contextDocument? (r : Request) : Option Json :=
  if r.context.isEmpty then none else some (.text r.context)

/-- The context of a request is nested too deep, or it is read and comes to a term definition
without the texts it needs. -/
def ContextEscapes [Platform] (r : Request) : Prop :=
  r.context ≠ "" ∧ (Json.read Platform.jsonDepth r.context = .error .tooDeep
    ∨ ∃ fields objects, Json.read Platform.jsonDepth r.context = .ok (.object fields)
      ∧ Context.objectsOf (Assoc.get? "@context" fields) = .ok objects
      ∧ Context.TextMissing objects)

/-- Faults of a request that are passed on: its names are accepted and its shapes text is read, and
then the first fault of the shapes is a number out of range; or the shapes have no fault and that
of the context is passed on; or an ontology is read whose classes cannot be walked to. -/
def Escapes [Platform] (r : Request) : Prop :=
  (∃ options, r.options = .ok options) ∧ ∃ g, Platform.parse r.format r.shacl = some g
    ∧ (Shape.FirstFault g .overflow
      ∨ (∀ x ∈ Shape.readings g, ∀ fault, ¬Shape.Fault g x fault) ∧ r.ContextEscapes
      ∨ ∃ o notices,
        (Ontology.ofGraph "<playground>" r.contextDocument? g).outcome = (.ok o, notices)
          ∧ o.walk (Platform.callDepth o) = none)

theorem readContext_passed_on_iff [Platform] {r : Request} {label source : String} :
    (Ontology.readContext label r.contextDocument? = .error (.context source .notText)
        ∨ Ontology.readContext label r.contextDocument? = .error (.context source .tooDeep)) ↔
      source = label ∧ r.ContextEscapes := by
  rw [ContextEscapes, ← Context.ofText_notText_iff, ← Context.ofText_tooDeep_iff, contextDocument?]
  by_cases hcontext : r.context = ""
  · simp [hcontext, Ontology.readContext]
  · simp only [String.isEmpty_iff, hcontext, if_false, Ontology.readContext, Context.ofJson]
    rcases Context.ofText r.context with e | c
    · simp [Except.mapError, hcontext, @eq_comm _ source]
      tauto
    · simp [Except.mapError]

/-- A report fails because of the names, of what is read, or of what is generated. -/
theorem report_failure_iff [Platform] {r : Request} {now : String} {e : RunError}
    (he : e.answer? = none) :
    (r.report now).failure? [] = some e ↔ (∃ options, r.options = .ok options)
      ∧ ((∃ fault, (Ontology.ofText "<playground>" r.format r.shacl r.contextDocument?).failure? []
          = some fault ∧ e = .ontology fault)
        ∨ ∃ o notices, (Ontology.ofText "<playground>" r.format r.shacl
            r.contextDocument?).outcome = (.ok o, notices)
          ∧ o.isWalkable = false ∧ e = .generation .tooDeep) := by
  rw [report, Noted.failure?_bind_eq_some_iff, Noted.failure?_liftM]
  rcases r.options with errors | options
  · have hne : RunError.options errors ≠ e := fun h => by
      rw [← h] at he
      cases he
    simp [Except.mapError, failure?, Noted.after_liftM, hne]
  · -- What is generated fails in a way that is answered, unless its hierarchy is too deep.
    have hgenerate : ∀ o t, Noted.failure? ((generate o options none now).adapt .generation) t
        = some e ↔ o.isWalkable = false ∧ e = .generation .tooDeep := fun o t => by
      rw [Noted.failure?_adapt, Option.map_eq_some_iff]
      constructor
      · rintro ⟨fault, hfault, rfl⟩
        rcases RunError.answer?_eq_none_iff.1 he with h | ⟨_, h | h⟩ | h <;> cases h
        exact ⟨(generate_tooDeep_iff t).1 hfault, rfl⟩
      · rintro ⟨hwalk, rfl⟩
        exact ⟨_, (generate_tooDeep_iff t).2 hwalk, rfl⟩
    rw [and_iff_right ⟨options, rfl⟩]
    constructor
    · rintro (h | ⟨a, t, ha, h⟩)
      · cases h
      · rw [Noted.after_liftM] at ha
        obtain ⟨rfl, rfl⟩ : options = a ∧ [] = t := by simpa [Except.mapError] using ha
        rw [Noted.failure?_bind_eq_some_iff, Noted.failure?_adapt, Option.map_eq_some_iff] at h
        rcases h with ⟨fault, hfault, rfl⟩ | ⟨o, t, ho, h⟩
        · exact .inl ⟨fault, hfault, rfl⟩
        · exact .inr ⟨o, t, Noted.after_adapt_ok.1 ho, (hgenerate o t).1 h⟩
    · intro h
      refine .inr ⟨options, [], rfl, Noted.failure?_bind_eq_some_iff.2 ?_⟩
      rcases h with ⟨fault, hfault, rfl⟩ | ⟨o, notices, ho, h⟩
      · refine .inl ?_
        rw [Noted.failure?_adapt]
        exact Option.map_eq_some_iff.2 ⟨fault, hfault, rfl⟩
      · exact .inr ⟨o, notices, Noted.after_adapt_ok.2 ho, (hgenerate o notices).2 h⟩

/-- Exactly the requests with such a fault have a failure that is passed on. -/
theorem failure_passed_on_iff [Platform] (r : Request) (now : String) :
    (∃ e, (r.report now).failure? [] = some e ∧ e.answer? = none) ↔ r.Escapes := by
  have hwalk_iff : ∀ o : Ontology,
      o.isWalkable = false ↔ o.walk (Platform.callDepth o) = none := fun o => by
    simp [Ontology.isWalkable]
  constructor
  · rintro ⟨e, hreport, he⟩
    obtain ⟨hoptions, ⟨fault, hfault, rfl⟩ | ⟨o, notices, ho, hwalk, -⟩⟩ :=
      (report_failure_iff he).1 hreport
    · refine ⟨hoptions, ?_⟩
      rcases RunError.answer?_eq_none_iff.1 he with heq | ⟨label, heq | heq⟩ | heq <;> cases heq
      · obtain ⟨g, hg, hfirst⟩ := (Ontology.ofText_overflow_iff []).1 hfault
        exact ⟨g, hg, .inl hfirst⟩
      · obtain ⟨g, hg, hreads, hcontext⟩ := (Ontology.ofText_context_iff []).1 hfault
        exact ⟨g, hg, .inr (.inl ⟨hreads, (readContext_passed_on_iff.1 (.inl hcontext)).2⟩)⟩
      · obtain ⟨g, hg, hreads, hcontext⟩ := (Ontology.ofText_context_iff []).1 hfault
        exact ⟨g, hg, .inr (.inl ⟨hreads, (readContext_passed_on_iff.1 (.inr hcontext)).2⟩)⟩
    · obtain ⟨g, hg, ho⟩ := Ontology.ofText_ok_iff.1 ho
      exact ⟨hoptions, g, hg, .inr (.inr ⟨o, notices, ho, (hwalk_iff o).1 hwalk⟩)⟩
  · rintro ⟨hoptions, g, hg, hfirst | ⟨hreads, hcontext⟩ | ⟨o, notices, ho, hwalk⟩⟩
    · refine ⟨.ontology (.shape .overflow),
        (report_failure_iff rfl).2 ⟨hoptions, .inl ⟨_, ?_, rfl⟩⟩, rfl⟩
      exact (Ontology.ofText_overflow_iff []).2 ⟨g, hg, hfirst⟩
    · have hfault : ∀ {label : String} {fault : ContextError},
          Ontology.readContext ("<playground>" ++ " (context)") r.contextDocument?
            = .error (.context label fault) →
          (Ontology.ofText "<playground>" r.format r.shacl r.contextDocument?).failure? []
            = some (.context label fault) := fun hread =>
        (Ontology.ofText_context_iff []).2 ⟨g, hg, hreads, hread⟩
      rcases readContext_passed_on_iff.2 ⟨rfl, hcontext⟩ with hread | hread
      · exact ⟨_, (report_failure_iff rfl).2 ⟨hoptions, .inl ⟨_, hfault hread, rfl⟩⟩, rfl⟩
      · exact ⟨_, (report_failure_iff rfl).2 ⟨hoptions, .inl ⟨_, hfault hread, rfl⟩⟩, rfl⟩
    · have hread := Ontology.ofText_ok_iff.2 ⟨g, hg, ho⟩
      exact ⟨_, (report_failure_iff rfl).2
        ⟨hoptions, .inr ⟨o, notices, hread, (hwalk_iff o).2 hwalk, rfl⟩⟩, rfl⟩

/-- A request with these texts. -/
def ofTexts (shacl context : String) : Request where
  shacl
  context
  format := "turtle"
  dslName := "instances"
  packageName := "generated"
  validationEnabled := true
  supportLanguageTags := false
  includeDocs := true

/-- A shape with a count that is beyond all doubles. -/
def infiniteCount : String :=
  "@prefix s: <http://www.w3.org/ns/shacl#> . s:a a s:NodeShape ; s:targetClass s:c ; "
    ++ "s:property [ s:path s:q ; s:minCount 1e999 ] ."

/-- A context with a number as an identifier. -/
def numberedTerm : String := "\x7b\"@context\":\x7b\"a\":\x7b\"@id\":1\x7d\x7d\x7d"

/-- A context with an identifier that nothing qualifies. -/
def unqualifiedTerm : String := "\x7b\"@context\":\x7b\"a\":\x7b\"@id\":\"b\"\x7d\x7d\x7d"

section

attribute [local instance] Platform.standard

end

end Request

end Playground

end ShapeForge
