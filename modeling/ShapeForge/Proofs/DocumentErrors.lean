import ShapeForge.Platform.Standard
import ShapeForge.Proofs.Collections
import ShapeForge.Proofs.ReadingFaults

/-!
# Errors of a document

Reading the shapes of a text fails if the platform makes no graph of it, and otherwise as the first
reading with a fault does (`Shape.FirstFaulty`). Only the error of a text that is no graph knows the
document (`Shape.exists_names_iff`). The error of a value that is no number names a fixed one, and
numbers out of range and lists without an end have errors that name none
(`Shape.Fault.source?_cases`).
-/

namespace ShapeForge

open Rdf (Graph)

/-- The document that an error names. -/
def ShapeError.source? : ShapeError → Option String
  | .unreadable source => some source
  | .notInteger .. | .notNumeric .. => some "<string>"
  | .overflow | .cyclicList => none

/-- The error names a document, and its message starts with this name. -/
def ShapeError.Names (e : ShapeError) (source : String) : Prop :=
  e.source? = some source ∧ ∃ detail, e.message = source ++ ": " ++ detail

theorem ShapeError.names_iff {e : ShapeError} {source : String} :
    e.Names source ↔ e.source? = some source := by
  refine ⟨And.left, fun h => ⟨h, ?_⟩⟩
  cases e with
  | unreadable label =>
    obtain rfl := Option.some.inj h
    refine ⟨"<parser error>", ?_⟩
    change label ++ (": " ++ "<parser error>") = _
    rw [String.append_assoc]
  | notInteger field shape value =>
    obtain rfl := Option.some.inj h
    refine ⟨field ++ " in " ++ shape ++ " must be an integer, got '" ++ value ++ "'", ?_⟩
    change "<string>" ++ ": " ++ field ++ " in " ++ shape ++ " must be an integer, got '" ++ value
      ++ "'" = _
    simp only [String.append_assoc]
  | notNumeric field shape value =>
    obtain rfl := Option.some.inj h
    refine ⟨field ++ " in " ++ shape ++ " must be numeric, got '" ++ value ++ "'", ?_⟩
    change "<string>" ++ ": " ++ field ++ " in " ++ shape ++ " must be numeric, got '" ++ value
      ++ "'" = _
    simp only [String.append_assoc]
  | overflow => cases h
  | cyclicList => cases h

namespace Shape

/-! ## The first fault -/

/-- Everything before this reading can be read, but the reading has a fault. -/
def FirstFaulty [Rdf.Datatypes] (g : Graph) (r : Reading) : Prop :=
  (∃ before after, readings g = before ++ r :: after ∧ ∀ x ∈ before, ∀ e, ¬Fault g x e)
    ∧ ∃ e, Fault g r e

theorem firstFault_iff [Rdf.Datatypes] {g : Graph} {e : ShapeError} :
    FirstFault g e ↔ ∃ r, FirstFaulty g r ∧ Fault g r e := by
  constructor
  · rintro ⟨before, r, after, hsplit, hbefore, hr⟩
    exact ⟨r, ⟨⟨before, after, hsplit, hbefore⟩, e, hr⟩, hr⟩
  · rintro ⟨r, ⟨⟨before, after, hsplit, hbefore⟩, -⟩, hr⟩
    exact ⟨before, r, after, hsplit, hbefore, hr⟩

/-- The term is a number out of range, or a list without an end. -/
def Unnamed [Rdf.Datatypes] (g : Graph) (r : Reading) : Prop :=
  OutOfRange r.kind (termValue r.term) ∨ r.kind = .list ∧ g.Endless r.term

theorem Fault.source?_cases [Rdf.Datatypes] {g : Graph} {r : Reading} {e : ShapeError}
    (h : Fault g r e) :
    (e.source? = some "<string>" ∧ Malformed r.kind (termValue r.term))
      ∨ (e.source? = none ∧ Unnamed g r) := by
  cases h with
  | notInteger hvalue => exact .inl ⟨rfl, hvalue⟩
  | notNumeric hvalue => exact .inl ⟨rfl, hvalue⟩
  | overflow hvalue => exact .inr ⟨rfl, .inl hvalue⟩
  | cyclicList hitems => exact .inr ⟨rfl, .inr ⟨rfl, Rdf.Graph.listItems_eq_none_iff.1 hitems⟩⟩

/-- A number out of range is a number. -/
theorem Malformed.not_unnamed [Rdf.Datatypes] {g : Graph} {r : Reading}
    (h : Malformed r.kind (termValue r.term)) : ¬ Unnamed g r := by
  rintro (hrange | ⟨hlist, -⟩)
  · generalize r.kind = kind at h hrange
    generalize termValue r.term = v at h hrange
    cases h <;> cases hrange
  · rw [hlist] at h
    cases h

theorem Fault.source?_eq_some_iff [Rdf.Datatypes] {g : Graph} {r : Reading} {e : ShapeError}
    (h : Fault g r e) :
    e.source? = some "<string>" ↔ Malformed r.kind (termValue r.term) := by
  rcases h.source?_cases with ⟨hsource, hvalue⟩ | ⟨hsource, hvalue⟩
  · exact iff_of_true hsource hvalue
  · exact iff_of_false (by simp [hsource]) fun hmalformed => hmalformed.not_unnamed hvalue

theorem Fault.source?_eq_none_iff [Rdf.Datatypes] {g : Graph} {r : Reading} {e : ShapeError}
    (h : Fault g r e) :
    e.source? = none ↔ Unnamed g r := by
  rcases h.source?_cases with ⟨hsource, hvalue⟩ | ⟨hsource, hvalue⟩
  · exact iff_of_false (by simp [hsource]) hvalue.not_unnamed
  · exact iff_of_true hsource hvalue

/-! ## Reading a text -/

variable {source format text : String}

theorem outcome_of_no_graph [Platform] (h : Platform.parse format text = none) :
    (shapesOfText source format text).outcome = (.error (.unreadable source), []) := by
  rw [Noted.outcome_eq, shapesOfText, loadGraph_eq, h]
  exact Noted.after_bind_of_error _ (Noted.after_liftM _ _)

theorem outcome_of_graph [Platform] {g : Graph} (h : Platform.parse format text = some g) :
    (shapesOfText source format text).outcome = (shapesOf g).outcome := by
  rw [Noted.outcome_eq, Noted.outcome_eq, shapesOfText, loadGraph_eq, h]
  exact Noted.after_bind_of_ok _ (Noted.after_liftM _ _)

theorem shapesOf_error_iff [Rdf.Datatypes] {g : Graph} {e : ShapeError} :
    (shapesOf g).outcome.1 = .error e ↔ ∃ r, FirstFaulty g r ∧ Fault g r e := by
  rw [Noted.outcome_eq, ← failure?_eq_some_iff, ← Noted.failure?, failure?_shapesOf_eq_some_iff,
    firstFault_iff]

theorem shapesOf_ok_iff [Rdf.Datatypes] {g : Graph} :
    (∃ shapes, (shapesOf g).outcome.1 = .ok shapes) ↔ ∀ r ∈ readings g, ∀ e, ¬Fault g r e := by
  rw [← failure?_shapesOf_eq_none_iff [], Noted.failure?_eq_none_iff, Noted.outcome_eq]
  constructor
  · rintro ⟨shapes, h⟩
    exact ⟨shapes, _, Prod.ext h rfl⟩
  · rintro ⟨shapes, notices, h⟩
    exact ⟨shapes, by rw [h]⟩

theorem shapesOfText_error_iff [Platform] {e : ShapeError} :
    (shapesOfText source format text).outcome.1 = .error e ↔
      Platform.parse format text = none ∧ e = .unreadable source
        ∨ ∃ g r, Platform.parse format text = some g ∧ FirstFaulty g r ∧ Fault g r e := by
  rcases hg : Platform.parse format text with _ | g
  · rw [outcome_of_no_graph hg, Except.error.injEq]
    simp [eq_comm]
  · rw [outcome_of_graph hg, shapesOf_error_iff]
    simp

/-- There are two documents that an error can name, the one that was read and a fixed one. -/
theorem exists_names_iff [Platform] {label : String} :
    (∃ e, (shapesOfText source format text).outcome.1 = .error e ∧ e.Names label) ↔
      Platform.parse format text = none ∧ label = source
        ∨ ∃ g r, Platform.parse format text = some g ∧ FirstFaulty g r
          ∧ Malformed r.kind (termValue r.term) ∧ label = "<string>" := by
  simp only [ShapeError.names_iff, shapesOfText_error_iff]
  constructor
  · rintro ⟨e, ⟨hg, rfl⟩ | ⟨g, r, hg, hr, he⟩, hlabel⟩
    · exact .inl ⟨hg, (Option.some.inj hlabel).symm⟩
    · rcases he.source?_cases with ⟨hstring, hvalue⟩ | ⟨hnone, -⟩
      · exact .inr ⟨g, r, hg, hr, hvalue, Option.some.inj (hlabel.symm.trans hstring)⟩
      · cases hnone.symm.trans hlabel
  · rintro (⟨hg, rfl⟩ | ⟨g, r, hg, hr, hvalue, rfl⟩)
    · exact ⟨_, .inl ⟨hg, rfl⟩, rfl⟩
    · obtain ⟨e, he⟩ := hr.2
      exact ⟨e, .inr ⟨g, r, hg, hr, he⟩, he.source?_eq_some_iff.2 hvalue⟩

/-- A shape with a name for a count. -/
def namedCount : String :=
  "@prefix s: <http://www.w3.org/ns/shacl#> . s:a a s:NodeShape ; s:targetClass s:c ; "
    ++ "s:property [ s:path s:q ; s:minCount s:m ] ."

section

attribute [local instance] Platform.standard

end

end Shape

end ShapeForge
