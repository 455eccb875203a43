import ShapeForge.Proofs.Extraction
import ShapeForge.Proofs.Rounding

/-!
# Faults of a shapes graph

The counts, lengths, lists, bounds and orders of a shapes graph are read one after another
(`Shape.readings`). A value that is no number, an infinite one or a list that runs into itself is a
fault (`Shape.Fault`), and reading the shapes fails with the first one
(`Shape.failure?_shapesOf_eq_some_iff`).
-/

namespace ShapeForge

open Rdf (Graph LiteralValue Term)

/-! ## Failures -/

section Failure

variable {ε α β : Type}

theorem findSome?_cons_or (f : α → Option β) (a : α) (as : List α) :
    (a :: as).findSome? f = (f a).or (as.findSome? f) := by
  rw [List.findSome?_cons]
  cases f a <;> rfl

theorem findSome?_flatMap {γ : Type} (f : α → List β) (p : β → Option γ) : ∀ as : List α,
    (as.flatMap f).findSome? p = as.findSome? fun a => (f a).findSome? p
  | [] => rfl
  | a :: as => by
    rw [List.flatMap_cons, List.findSome?_append, findSome?_flatMap f p as, findSome?_cons_or]

/-- The error of a computation that fails. -/
def failure? : Except ε α → Option ε
  | .error e => some e
  | .ok _ => none

theorem failure?_eq_some_iff {x : Except ε α} {e : ε} : failure? x = some e ↔ x = .error e := by
  rcases x with e' | a <;> simp [failure?]

/-- Two computations fail as the first does, or else as the second does whatever it is given. -/
theorem failure?_bind {x : Except ε α} {f : α → Except ε β} {first second : Option ε}
    (hx : failure? x = first) (hf : ∀ a, failure? (f a) = second) :
    failure? (x >>= f) = first.or second := by
  rcases x with e | a
  · rw [← hx]
    rfl
  · rw [← hx]
    exact hf a

namespace Noted

/-- The error of a computation that starts with some notices. -/
def failure? (x : Noted ε α) (s : List Notice) : Option ε := ShapeForge.failure? (x.after s).1

theorem failure?_bind {x : Noted ε α} {f : α → Noted ε β} {first second : Option ε}
    {s : List Notice} (hx : x.failure? s = first) (hf : ∀ a t, (f a).failure? t = second) :
    (x >>= f).failure? s = first.or second := by
  rw [← hx]
  unfold failure?
  rcases hafter : x.after s with ⟨e | a, t⟩
  · rw [after_bind_of_error f hafter]
    rfl
  · rw [after_bind_of_ok f hafter]
    exact hf a t

theorem failure?_bind_eq_some_iff {x : Noted ε α} {f : α → Noted ε β} {e : ε} {s : List Notice} :
    (x >>= f).failure? s = some e ↔ x.failure? s = some e
      ∨ ∃ a t, x.after s = (.ok a, t) ∧ (f a).failure? t = some e := by
  unfold failure?
  rcases hx : x.after s with ⟨e' | a, t⟩
  · rw [after_bind_of_error f hx]
    simp [ShapeForge.failure?]
  · rw [after_bind_of_ok f hx]
    simp [ShapeForge.failure?]

theorem failure?_eq_none_iff {x : Noted ε α} {s : List Notice} :
    x.failure? s = none ↔ ∃ a t, x.after s = (.ok a, t) := by
  unfold failure?
  rcases x.after s with ⟨e | a, t⟩ <;> simp [ShapeForge.failure?]

theorem failure?_liftM (x : Except ε α) (s : List Notice) :
    failure? (liftM x : Noted ε α) s = ShapeForge.failure? x := by
  rw [failure?, after_liftM]

theorem failure?_bind_pure {x : Noted ε α} {first : Option ε} {s : List Notice} (f : α → β)
    (hx : x.failure? s = first) : (x >>= fun a => pure (f a)).failure? s = first := by
  rw [failure?_bind hx fun _ _ => rfl, Option.or_none]

/-- Computations fail as the first one that does. -/
theorem failure?_mapM {f : α → Noted ε β} {fault : α → Option ε} :
    ∀ {xs : List α} (s : List Notice), (∀ x ∈ xs, ∀ t, (f x).failure? t = fault x) →
      (xs.mapM f).failure? s = xs.findSome? fault
  | [], s, _ => rfl
  | x :: xs, s, h => by
    rw [List.forall_mem_cons] at h
    rw [List.mapM_cons, findSome?_cons_or]
    exact failure?_bind (h.1 s) fun b t => failure?_bind_pure _ (failure?_mapM t h.2)

end Noted

end Failure

/-! ## What is read -/

namespace Shape

/-- What a field of a property node is read as. -/
inductive FieldKind where
  | integer
  | number
  | list

/-- The fields of a property node that are read as something, in order. -/
def fieldKinds : List (String × FieldKind) :=
  [("minCount", .integer), ("maxCount", .integer), ("minLength", .integer),
    ("maxLength", .integer), ("in", .list), ("minInclusive", .number), ("maxInclusive", .number),
    ("minExclusive", .number), ("maxExclusive", .number), ("order", .number)]

/-- A term that is read, with the field of the shape that it stands in. -/
structure Reading where
  shape : String
  field : String
  kind : FieldKind
  term : Term

/-- What is read at a property node: its fields, if its path is a single predicate. -/
def propertyReadings (g : Graph) (shape : String) (node : Term) : List Reading :=
  if (field? g node "path").any Term.isIri then
    fieldKinds.flatMap fun f => (field? g node f.1).toList.map fun t => ⟨shape, f.1, f.2, t⟩
  else []

/-- What is read at a shape node: its property nodes, if it targets a class. -/
def shapeReadings (g : Graph) (node : Term) : List Reading :=
  if (g.objects node (.iri (Rdf.sh "targetClass"))).any Term.isIri then
    (g.objects node (.iri (Rdf.sh "property"))).flatMap (propertyReadings g node.text)
  else []

/-- What is read of a graph, in order. -/
def readings (g : Graph) : List Reading :=
  (Rdf.distinctTerms (g.subjects (.iri Rdf.rdfType) (.iri (Rdf.sh "NodeShape")))).flatMap
    (shapeReadings g)

/-- The value that a term is read through: that of a literal, or the text of another term. -/
def termValue [Rdf.Datatypes] : Term → LiteralValue
  | .literal l => l.value
  | t => .text t.text

/-- A value that is not of a kind. -/
inductive Malformed : FieldKind → LiteralValue → Prop
  | integerText {s : String} : Numeral.integer? s = none → Malformed .integer (.text s)
  | integerNan : Malformed .integer (.double .nan)
  | integerDecimalNan (negative signaling : Bool) (payload : ℕ) :
    Malformed .integer (.decimal (.nan negative signaling payload))
  | integerOther (lexical : String) : Malformed .integer (.other lexical)
  | numberText {s : String} : Numeral.double? s = none → Malformed .number (.text s)
  | signalingNan (negative : Bool) (payload : ℕ) :
    Malformed .number (.decimal (.nan negative true payload))
  | numberOther (lexical : String) : Malformed .number (.other lexical)

/-- A value that is out of the range of a kind: an infinite one is no integer, and an integer may
be beyond all doubles. -/
inductive OutOfRange : FieldKind → LiteralValue → Prop
  | infinite (negative : Bool) : OutOfRange .integer (.double (.infinite negative))
  | infiniteDecimal (negative : Bool) : OutOfRange .integer (.decimal (.infinite negative))
  | wide {i : ℤ} : Double.leastInfinite ≤ i.natAbs → OutOfRange .number (.integer i)

/-- What is wrong with a reading. -/
inductive Fault [Rdf.Datatypes] (g : Graph) : Reading → ShapeError → Prop
  | notInteger {shape field : String} {t : Term} : Malformed .integer (termValue t) →
    Fault g ⟨shape, field, .integer, t⟩ (.notInteger field shape t.text)
  | notNumeric {shape field : String} {t : Term} : Malformed .number (termValue t) →
    Fault g ⟨shape, field, .number, t⟩ (.notNumeric field shape t.text)
  | overflow {r : Reading} : OutOfRange r.kind (termValue r.term) → Fault g r .overflow
  | cyclicList {shape field : String} {t : Term} : g.listItems t = none →
    Fault g ⟨shape, field, .list, t⟩ .cyclicList

/-! ## What is wrong with it -/

theorem readTerm_eq [Rdf.Datatypes] {α : Type} (ofValue : LiteralValue → α) (ofText : String → α)
    (h : ∀ s, ofValue (.text s) = ofText s) (t : Term) :
    readTerm ofValue ofText t = ofValue (termValue t) := by
  rcases t with s | label | l
  · exact (h _).symm
  · exact (h _).symm
  · rfl

theorem integerOf_malformed_iff {v : LiteralValue} :
    integerOf v = .error .malformed ↔ Malformed .integer v := by
  constructor
  · intro h
    rcases v with i | d | d | b | s | lexical
    · cases h
    · rcases d with _ | _ | _
      · cases h
      · cases h
      · exact .integerNan
    · rcases d with _ | _ | ⟨negative, signaling, payload⟩
      · cases h
      · cases h
      · exact .integerDecimalNan negative signaling payload
    · cases h
    · rw [integerOf, integerOfText] at h
      rcases hs : Numeral.integer? s with _ | i
      · exact .integerText hs
      · simp [hs] at h
    · exact .integerOther _
  · rintro (hs | _ | _ | _)
    · simp [integerOf, integerOfText, hs]
    · rfl
    · rfl
    · rfl

theorem integerOf_overflow_iff {v : LiteralValue} :
    integerOf v = .error .overflow ↔ OutOfRange .integer v := by
  constructor
  · intro h
    rcases v with i | d | d | b | s | lexical
    · cases h
    · rcases d with _ | negative | _
      · cases h
      · exact .infinite negative
      · cases h
    · rcases d with _ | negative | _
      · cases h
      · exact .infiniteDecimal negative
      · cases h
    · cases h
    · rw [integerOf, integerOfText] at h
      rcases hs : Numeral.integer? s with _ | i <;> simp [hs] at h
    · cases h
  · rintro (_ | _) <;> rfl

theorem doubleOf_malformed_iff {v : LiteralValue} :
    doubleOf v = .error .malformed ↔ Malformed .number v := by
  constructor
  · intro h
    rcases v with i | d | d | b | s | lexical
    · rw [doubleOf] at h
      split at h <;> cases h
    · cases h
    · rcases d with _ | _ | ⟨negative, _ | _, payload⟩
      · cases h
      · cases h
      · cases h
      · exact .signalingNan negative payload
    · cases h
    · rw [doubleOf, doubleOfText] at h
      rcases hs : Numeral.double? s with _ | d
      · exact .numberText hs
      · simp [hs] at h
    · exact .numberOther _
  · rintro (_ | _ | _ | _ | hs | _ | _)
    · simp [doubleOf, doubleOfText, hs]
    · rfl
    · rfl

theorem doubleOf_overflow_iff {v : LiteralValue} :
    doubleOf v = .error .overflow ↔ OutOfRange .number v := by
  constructor
  · intro h
    rcases v with i | d | d | b | s | lexical
    · refine .wide (Double.ofInt_infinite_iff.1 ?_)
      rw [doubleOf] at h
      split at h
      · exact ⟨_, ‹_›⟩
      · cases h
    · cases h
    · rcases d with _ | _ | ⟨negative, _ | _, payload⟩ <;> cases h
    · cases h
    · rw [doubleOf, doubleOfText] at h
      rcases hs : Numeral.double? s with _ | d <;> simp [hs] at h
    · cases h
  · rintro (_ | _ | hwide)
    obtain ⟨sign, hsign⟩ := Double.ofInt_infinite_iff.2 hwide
    simp [doubleOf, hsign]

def NumberFault.error (malformed : ShapeError) : NumberFault → ShapeError
  | .malformed => malformed
  | .overflow => .overflow

/-- What is wrong with a reading, if something is. -/
def Reading.fault? [Rdf.Datatypes] (g : Graph) (r : Reading) : Option ShapeError :=
  match r.kind with
  | .integer => (failure? (integerOf (termValue r.term))).map
      (NumberFault.error (.notInteger r.field r.shape r.term.text))
  | .number => (failure? (doubleOf (termValue r.term))).map
      (NumberFault.error (.notNumeric r.field r.shape r.term.text))
  | .list => if (g.listItems r.term).isNone then some .cyclicList else none

theorem Reading.fault?_eq_some_iff [Rdf.Datatypes] {g : Graph} {r : Reading} {e : ShapeError} :
    r.fault? g = some e ↔ Fault g r e := by
  obtain ⟨shape, field, kind, t⟩ := r
  constructor
  · intro h
    cases kind with
    | integer =>
      obtain ⟨fault, hfault, rfl⟩ := Option.map_eq_some_iff.1 h
      rw [failure?_eq_some_iff] at hfault
      cases fault with
      | malformed => exact .notInteger (integerOf_malformed_iff.1 hfault)
      | overflow => exact .overflow (integerOf_overflow_iff.1 hfault)
    | number =>
      obtain ⟨fault, hfault, rfl⟩ := Option.map_eq_some_iff.1 h
      rw [failure?_eq_some_iff] at hfault
      cases fault with
      | malformed => exact .notNumeric (doubleOf_malformed_iff.1 hfault)
      | overflow => exact .overflow (doubleOf_overflow_iff.1 hfault)
    | list =>
      obtain ⟨hitems, he⟩ := Option.ite_none_right_eq_some.1 h
      obtain rfl := Option.some.inj he
      exact .cyclicList (Option.isNone_iff_eq_none.1 hitems)
  · intro h
    cases h with
    | notInteger hvalue =>
      simp [fault?, integerOf_malformed_iff.2 hvalue, failure?, NumberFault.error]
    | notNumeric hvalue =>
      simp [fault?, doubleOf_malformed_iff.2 hvalue, failure?, NumberFault.error]
    | overflow hvalue =>
      cases kind with
      | integer => simp [fault?, integerOf_overflow_iff.2 hvalue, failure?, NumberFault.error]
      | number => simp [fault?, doubleOf_overflow_iff.2 hvalue, failure?, NumberFault.error]
      | list => cases hvalue
    | cyclicList hitems => simp [fault?, hitems]

section Fields

variable (g : Graph) (shape : String) (node : Term) (name : String)

theorem failure?_integerField? [Rdf.Datatypes] : failure? (integerField? g shape node name)
    = (field? g node name).bind fun t => Reading.fault? g ⟨shape, name, .integer, t⟩ := by
  rw [integerField?]
  rcases field? g node name with _ | t
  · rfl
  · simp only [Option.bind_some, Reading.fault?, readTerm_eq integerOf integerOfText fun _ => rfl]
    rcases integerOf (termValue t) with (_ | _) | i <;> rfl

theorem failure?_doubleField? [Rdf.Datatypes] : failure? (doubleField? g shape node name)
    = (field? g node name).bind fun t => Reading.fault? g ⟨shape, name, .number, t⟩ := by
  rw [doubleField?]
  rcases field? g node name with _ | t
  · rfl
  · simp only [Option.bind_some, Reading.fault?, readTerm_eq doubleOf doubleOfText fun _ => rfl]
    rcases doubleOf (termValue t) with (_ | _) | d <;> rfl

theorem failure?_listField? [Rdf.Datatypes] : failure? (listField? g node name)
    = (field? g node name).bind fun t => Reading.fault? g ⟨shape, name, .list, t⟩ := by
  rw [listField?]
  rcases field? g node name with _ | t
  · rfl
  · simp only [Option.bind_some, Reading.fault?]
    rcases g.listItems t with _ | items <;> rfl

/-- The fields of a property node are read in order. -/
theorem failure?_propertyAt [Rdf.Datatypes] (path : String) :
    failure? (propertyAt g shape path node)
    = fieldKinds.findSome? fun f => (field? g node f.1).bind fun t =>
        Reading.fault? g ⟨shape, f.1, f.2, t⟩ := by
  simp only [propertyAt, constraintsOf, bind_assoc, pure_bind, fieldKinds, findSome?_cons_or]
  iterate 4 refine failure?_bind (failure?_integerField? ..) fun _ => ?_
  refine failure?_bind (failure?_listField? ..) fun _ => ?_
  iterate 5 refine failure?_bind (failure?_doubleField? ..) fun _ => ?_
  rfl

theorem failure?_propertyOf [Rdf.Datatypes] (s : List Notice) : (propertyOf g shape node).failure? s
    = (propertyReadings g shape node).findSome? (Reading.fault? g) := by
  rw [propertyOf, propertyReadings]
  rcases field? g node "path" with _ | path | label | l
  · rfl
  · have hlift : (some <$> liftM (propertyAt g shape path node) : Noted _ _).failure? s
        = failure? (propertyAt g shape path node) := by
      rcases propertyAt g shape path node with e | d <;> rfl
    refine hlift.trans ?_
    rw [failure?_propertyAt, Option.any_some, Term.isIri, if_pos rfl, findSome?_flatMap]
    congr 1
    funext f
    rcases field? g node f.1 with _ | t
    · rfl
    · exact List.findSome?_singleton.symm
  · rfl
  · rfl

theorem failure?_shapesAt [Rdf.Datatypes] (s : List Notice) : (shapesAt g node).failure? s
    = (shapeReadings g node).findSome? (Reading.fault? g) := by
  have htargets : ((g.objects node (.iri (Rdf.sh "targetClass"))).filterMap Term.iri?).isEmpty
      = !(g.objects node (.iri (Rdf.sh "targetClass"))).any Term.isIri := by
    rw [Bool.eq_iff_iff, List.isEmpty_iff, List.filterMap_eq_nil_iff, Bool.not_eq_true',
      List.any_eq_false]
    refine forall₂_congr fun t _ => ?_
    cases t <;> simp [Term.iri?, Term.isIri]
  rw [shapesAt, shapeReadings]
  simp only [htargets]
  cases (g.objects node (.iri (Rdf.sh "targetClass"))).any Term.isIri with
  | false => rfl
  | true =>
    rw [if_pos rfl, findSome?_flatMap]
    exact Noted.failure?_bind_pure _ (Noted.failure?_bind_pure _
      (Noted.failure?_mapM s fun property _ t => failure?_propertyOf g node.text property t))

/-- Reading shapes fails as the first reading with a fault does. -/
theorem failure?_shapesOf [Rdf.Datatypes] (s : List Notice) : (shapesOf g).failure? s
    = (readings g).findSome? (Reading.fault? g) := by
  rw [readings, findSome?_flatMap]
  exact Noted.failure?_bind_pure _
    (Noted.failure?_mapM s fun node _ t => failure?_shapesAt g node t)

end Fields

/-- The first reading with a fault has this one. -/
def FirstFault [Rdf.Datatypes] (g : Graph) (e : ShapeError) : Prop :=
  ∃ before r after, readings g = before ++ r :: after ∧ (∀ x ∈ before, ∀ e', ¬Fault g x e')
    ∧ Fault g r e

theorem not_fault_iff [Rdf.Datatypes] {g : Graph} {r : Reading} :
    (∀ e, ¬Fault g r e) ↔ r.fault? g = none := by
  simp only [Option.eq_none_iff_forall_ne_some, ne_eq, Reading.fault?_eq_some_iff]

theorem failure?_shapesOf_eq_some_iff [Rdf.Datatypes] {g : Graph} {e : ShapeError}
    (s : List Notice) :
    (shapesOf g).failure? s = some e ↔ FirstFault g e := by
  rw [failure?_shapesOf, List.findSome?_eq_some_iff]
  simp only [FirstFault, not_fault_iff, Reading.fault?_eq_some_iff]
  constructor
  · rintro ⟨before, r, after, hsplit, hr, hbefore⟩
    exact ⟨before, r, after, hsplit, hbefore, hr⟩
  · rintro ⟨before, r, after, hsplit, hbefore, hr⟩
    exact ⟨before, r, after, hsplit, hr, hbefore⟩

theorem failure?_shapesOf_eq_none_iff [Rdf.Datatypes] {g : Graph} (s : List Notice) :
    (shapesOf g).failure? s = none ↔ ∀ r ∈ readings g, ∀ e, ¬Fault g r e := by
  rw [failure?_shapesOf, List.findSome?_eq_none_iff]
  simp only [not_fault_iff]

end Shape

theorem loadGraph_eq [Platform] (source format text : String) :
    loadGraph source format text
      = (Platform.parse format text).elim (.error (.unreadable source)) .ok := by
  rw [loadGraph]
  rcases Platform.parse format text with _ | g <;> rfl

/-! ## Contexts -/

/-- Taking one thing after another fails where the first of them cannot be taken. -/
theorem foldlM_error_iff {ε α β : Type} {f : β → α → Except ε β} {e : ε} :
    ∀ {as : List α} {b : β}, as.foldlM f b = .error e ↔
      ∃ before a after c, as = before ++ a :: after ∧ before.foldlM f b = .ok c
        ∧ f c a = .error e
  | [], b => by simp [pure, Except.pure]
  | a :: as, b => by
    rw [List.foldlM_cons]
    rcases ha : f b a with e' | c
    · constructor
      · intro h
        obtain rfl : e' = e := Except.error.inj h
        exact ⟨[], a, as, b, rfl, rfl, ha⟩
      · rintro ⟨_ | ⟨a', before⟩, x, after, c, hsplit, hbefore, hx⟩
        · obtain ⟨rfl, rfl⟩ := List.cons.inj hsplit
          obtain rfl : b = c := Except.ok.inj hbefore
          rw [ha] at hx
          exact hx
        · obtain ⟨rfl, rfl⟩ := List.cons.inj hsplit
          rw [List.foldlM_cons, ha] at hbefore
          cases hbefore
    · change as.foldlM f c = .error e ↔ _
      rw [foldlM_error_iff]
      constructor
      · rintro ⟨before, x, after, d, rfl, hbefore, hx⟩
        exact ⟨a :: before, x, after, d, rfl, by rw [List.foldlM_cons, ha]; exact hbefore, hx⟩
      · rintro ⟨_ | ⟨a', before⟩, x, after, d, hsplit, hbefore, hx⟩
        · obtain ⟨rfl, rfl⟩ := List.cons.inj hsplit
          obtain rfl : b = d := Except.ok.inj hbefore
          rw [ha] at hx
          cases hx
        · obtain ⟨rfl, rfl⟩ := List.cons.inj hsplit
          rw [List.foldlM_cons, ha] at hbefore
          exact ⟨before, x, after, d, rfl, hbefore, hx⟩

/-- The errors of texts that are no documents. -/
def ContextError.isOfText : ContextError → Bool
  | .invalidJson | .longInteger _ | .tooDeep => true
  | _ => false

namespace Context

/-- A term definition with a type that is no text, or with an identifier that is none and a type
that can be taken. -/
inductive Untextual (c : Context) : Json → Prop
  | type {fields : List (String × Json)} {id type : Json} :
    Assoc.get? "@id" fields = some id → id ≠ .null → Assoc.get? "@type" fields = some type →
      type ≠ .null → (∀ s, type ≠ .text s) → Untextual c (.object fields)
  | identifier {fields : List (String × Json)} {id : Json} {type : Option String} :
    Assoc.get? "@id" fields = some id → id ≠ .null → (∀ s, id ≠ .text s) →
      c.termType (Assoc.get? "@type" fields) = .ok type → Untextual c (.object fields)

theorem isOfText_of_expand {c : Context} {term : String} {e : ContextError}
    (h : c.expand term = .error e) : e ≠ .notText ∧ e.isOfText = false := by
  have hplain : c.expandPlain term = .error e → e ≠ .notText ∧ e.isOfText = false := by
    unfold expandPlain
    intro h
    split_ifs at h
    split at h <;> cases h
    exact ⟨by simp, rfl⟩
  unfold expand at h
  split at h
  · split_ifs at h with hempty
    · exact hplain h
    · split at h <;> cases h
    · split at h <;> cases h
      exact ⟨by simp, rfl⟩
  · exact hplain h

theorem expand_ne_notText (c : Context) (term : String) : c.expand term ≠ .error .notText :=
  fun h => (isOfText_of_expand h).1 rfl

theorem map_expand_ne_notText (c : Context) (term : String) {β : Type} (f : String → β) :
    (c.expand term).map f ≠ .error .notText := by
  have hterm := c.expand_ne_notText term
  rcases hexpand : c.expand term with e | iri
  · rw [hexpand] at hterm
    exact fun h => hterm (congrArg Except.error (Except.error.inj h))
  · exact fun h => by cases h

theorem expandJson_notText_iff {c : Context} {value : Json} :
    c.expandJson value = .error .notText ↔ ∀ s, value ≠ .text s := by
  cases value with
  | text s => exact iff_of_false (c.expand_ne_notText s) fun h => h s rfl
  | _ => exact iff_of_true rfl (by simp)

theorem termType_notText_iff {c : Context} {type : Option Json} :
    c.termType type = .error .notText ↔
      ∃ value, type = some value ∧ value ≠ .null ∧ ∀ s, value ≠ .text s := by
  rcases type with _ | value
  · exact iff_of_false (by simp [termType]) (by simp)
  · cases value with
    | null => exact iff_of_false (by simp [termType]) (by simp)
    | text s =>
      refine iff_of_false ?_ (by simp)
      simp only [termType]
      split_ifs
      · simp
      · exact c.map_expand_ne_notText s _
    | _ => exact iff_of_true rfl ⟨_, rfl, by simp, by simp⟩

theorem untextual_object_iff {c : Context} {fields : List (String × Json)} :
    c.Untextual (.object fields) ↔ ∃ id, Assoc.get? "@id" fields = some id ∧ id ≠ .null
      ∧ (c.termType (Assoc.get? "@type" fields) = .error .notText
        ∨ ∃ type, c.termType (Assoc.get? "@type" fields) = .ok type
          ∧ c.expandJson id = .error .notText) := by
  simp only [termType_notText_iff, expandJson_notText_iff]
  constructor
  · intro h
    cases h with
    | type hid hnull htype htypeNull htext =>
      exact ⟨_, hid, hnull, .inl ⟨_, htype, htypeNull, htext⟩⟩
    | identifier hid hnull htext htype => exact ⟨_, hid, hnull, .inr ⟨_, htype, htext⟩⟩
  · rintro ⟨id, hid, hnull, ⟨type, htype, htypeNull, htext⟩ | ⟨type, htype, htext⟩⟩
    · exact .type hid hnull htype htypeNull htext
    · exact .identifier hid hnull htext htype

/-- An entry fails in this way exactly if it defines a term without the texts it needs. -/
theorem takeEntry_notText_iff {c : Context} {key : String} {value : Json} :
    c.takeEntry key value = .error .notText ↔
      key.startsWith "@" = false ∧ c.Untextual value := by
  unfold takeEntry
  split_ifs with hkey
  · exact iff_of_false (by simp) (by simp [hkey])
  rw [and_iff_right (by simpa using hkey)]
  cases value with
  | text iri =>
    refine iff_of_false ?_ (by rintro ⟨⟩)
    dsimp only
    split_ifs
    · simp
    · exact c.map_expand_ne_notText iri _
  | object fields =>
    rw [untextual_object_iff]
    dsimp only
    split
    case h_1 hid => exact iff_of_false (by simp) (by simp [hid])
    case h_2 hid => exact iff_of_false (by simp) (by simp [hid])
    case h_3 id hnull hid =>
      rcases htype : c.termType (Assoc.get? "@type" fields) with e | type
      · simpa [bind, Except.bind, hid] using fun _ hnull' => hnull hnull'
      · rcases hexpand : c.expandJson id with e | iri
        · simpa [bind, Except.bind, hid, hexpand] using fun _ hnull' => hnull hnull'
        · simp [bind, Except.bind, pure, Except.pure, hid, hexpand]
  | _ => exact iff_of_false (by simp) (by rintro ⟨⟩)

/-- Taking context objects comes to a term definition without the texts it needs, after all before
it was taken. -/
def TextMissing (objects : List (List (String × Json))) : Prop :=
  ∃ earlier fields later c, objects = earlier ++ fields :: later
    ∧ earlier.foldlM takeObject {} = .ok c
    ∧ ∃ before entry after c', fields = before ++ entry :: after
      ∧ before.foldlM (fun c e => c.takeEntry e.1 e.2) ((c.addPrefixes fields).takeDefaults fields)
        = .ok c'
      ∧ entry.1.startsWith "@" = false ∧ c'.Untextual entry.2

theorem foldlM_notText_iff {objects : List (List (String × Json))} :
    objects.foldlM takeObject {} = .error .notText ↔ TextMissing objects := by
  have hobject : ∀ (c : Context) (fields : List (String × Json)), c.takeObject fields
      = fields.foldlM (fun c e => c.takeEntry e.1 e.2)
        ((c.addPrefixes fields).takeDefaults fields) := fun _ _ => rfl
  simp only [foldlM_error_iff, hobject, takeEntry_notText_iff, TextMissing]

theorem objectsOf_ne_notText (context : Option Json) : objectsOf context ≠ .error .notText := by
  rcases context with _ | (_ | _ | _ | _ | _ | _ | _) <;> simp [objectsOf]

theorem ofDocument_notText_iff {document : Json} :
    ofDocument document = .error .notText ↔ ∃ fields objects, document = .object fields
      ∧ objectsOf (Assoc.get? "@context" fields) = .ok objects ∧ TextMissing objects := by
  cases document with
  | object fields =>
    rw [ofDocument]
    rcases hobjects : objectsOf (Assoc.get? "@context" fields) with e | objects
    · have he : e ≠ .notText := fun he => objectsOf_ne_notText _ (he ▸ hobjects)
      simp [bind, Except.bind, hobjects, he]
    · have hread : objects.foldlM takeObject {} = .error .notText ↔
          ∃ fields' objects', Json.object fields = .object fields'
            ∧ objectsOf (Assoc.get? "@context" fields') = .ok objects' ∧ TextMissing objects' := by
        simp [foldlM_notText_iff, hobjects]
      rw [← hread]
      rcases objects with _ | ⟨first, rest⟩
      · exact iff_of_false (by simp [bind, Except.bind, throw, throwThe, MonadExceptOf.throw])
          (by simp [pure, Except.pure])
      · rfl
  | _ => exact iff_of_false (by simp [ofDocument]) (by simp)

theorem ofText_notText_iff [Platform] {text : String} :
    ofText text = .error .notText ↔ ∃ fields objects,
      Json.read Platform.jsonDepth text = .ok (.object fields)
        ∧ objectsOf (Assoc.get? "@context" fields) = .ok objects ∧ TextMissing objects := by
  rw [ofText, decode]
  rcases Json.read Platform.jsonDepth text with (_ | _ | _) | document
  · simp [Except.mapError, bind, Except.bind]
  · simp [Except.mapError, bind, Except.bind]
  · simp [Except.mapError, bind, Except.bind]
  · change ofDocument document = .error .notText ↔ _
    simp only [ofDocument_notText_iff, Except.ok.injEq]

theorem isOfText_of_termType {c : Context} {type : Option Json} {e : ContextError}
    (h : c.termType type = .error e) : e.isOfText = false := by
  rcases type with _ | (_ | _ | _ | _ | text | _ | _)
  case some.text =>
    simp only [termType] at h
    split_ifs at h
    exact (isOfText_of_expand (map_error_iff.1 h)).2
  all_goals
    cases h
    try rfl

theorem isOfText_of_expandJson {c : Context} {value : Json} {e : ContextError}
    (h : c.expandJson value = .error e) : e.isOfText = false := by
  cases value with
  | text term => exact (isOfText_of_expand h).2
  | _ =>
    cases h
    rfl

theorem isOfText_of_takeEntry {c : Context} {key : String} {value : Json} {e : ContextError}
    (h : c.takeEntry key value = .error e) : e.isOfText = false := by
  unfold takeEntry at h
  split_ifs at h
  cases value with
  | text iri =>
    dsimp only at h
    split_ifs at h
    rcases bind_error_iff.1 h with h | ⟨_, -, h⟩
    · exact (isOfText_of_expand h).2
    · cases h
  | object fields =>
    dsimp only at h
    split at h
    · cases h
    · cases h
    · rcases bind_error_iff.1 h with h | ⟨_, -, h⟩
      · exact isOfText_of_termType h
      · rcases bind_error_iff.1 h with h | ⟨_, -, h⟩
        · exact isOfText_of_expandJson h
        · cases h
  | _ => cases h

theorem isOfText_of_objectsOf {context : Option Json} {e : ContextError}
    (h : objectsOf context = .error e) : e.isOfText = false := by
  rcases context with _ | (_ | _ | _ | _ | _ | _ | _) <;> cases h
  rfl

/-- Documents have no errors of texts. -/
theorem isOfText_of_ofDocument {document : Json} {e : ContextError}
    (h : ofDocument document = .error e) : e.isOfText = false := by
  cases document with
  | object fields =>
    rw [ofDocument] at h
    rcases bind_error_iff.1 h with h | ⟨objects, -, h⟩
    · exact isOfText_of_objectsOf h
    · dsimp only at h
      split_ifs at h
      · cases h
        rfl
      · obtain ⟨_, object, _, c, -, -, h⟩ := foldlM_error_iff.1 h
        obtain ⟨_, entry, _, c', -, -, h⟩ := foldlM_error_iff.1 h
        exact isOfText_of_takeEntry h
  | _ =>
    cases h
    rfl

/-- A text has no context for its nesting exactly if it is nested too deep to be decoded. -/
theorem ofText_tooDeep_iff [Platform] {text : String} :
    ofText text = .error .tooDeep ↔ Json.read Platform.jsonDepth text = .error .tooDeep := by
  rw [ofText, bind_error_iff, decode]
  rcases Json.read Platform.jsonDepth text with (_ | _ | _) | document
  · simp [Except.mapError]
  · simp [Except.mapError]
  · simp [Except.mapError]
  · have hne : ofDocument document ≠ .error .tooDeep := fun h => by
      cases isOfText_of_ofDocument h
    simp [Except.mapError, hne]

end Context

end ShapeForge
