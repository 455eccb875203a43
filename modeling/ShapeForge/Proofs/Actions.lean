import Mathlib
import ShapeForge.Session.Building

/-!
# Outcomes of actions

An action that starts in a session has an outcome and leaves a session (`Action.after`); a sequence
goes on where its first part left off (`Action.after_bind`). Arguments are evaluated without any
change, so a setter call changes nothing but the builder (`Action.after_set`).

A setter makes a term of what it is given and either stores it or refuses it
(`Builder.receive_cases`).
-/

namespace ShapeForge

open Rdf (Term)

namespace Action

variable {α β : Type}

/-- The outcome of an action that starts in a session, and the session after it. -/
def after (x : Action α) (s : Session) : Except ActionError α × Session := Id.run (x.run.run s)

theorem after_pure (a : α) (s : Session) : (pure a : Action α).after s = (.ok a, s) := rfl

theorem after_bind (x : Action α) (f : α → Action β) (s : Session) :
    (x >>= f).after s = match x.after s with
      | (.ok a, t) => (f a).after t
      | (.error e, t) => (.error e, t) := by
  simp only [after, ExceptT.run_bind, StateT.run_bind]
  rcases hx : StateT.run (ExceptT.run x) s with ⟨_ | _, u⟩ <;> rfl

theorem after_get (s : Session) : (get : Action Session).after s = (.ok s, s) := rfl

theorem after_modify (f : Session → Session) (s : Session) :
    (modify f : Action Unit).after s = (.ok (), f s) := rfl

theorem after_ofExcept {ε : Type} (cause : ε → ActionError) (r : Except ε α) (s : Session) :
    (ofExcept cause r).after s = (r.mapError cause, s) := by
  rcases r with e | a <;> rfl

theorem after_lookup {name : String} {s : Session} {v : Variable}
    (h : Assoc.get? name s.bindings = some v) : (lookup name).after s = (.ok v, s) := by
  rw [lookup, after_bind, after_get]
  simp only [h]
  rfl

theorem after_lookup_none {name : String} {s : Session} (h : Assoc.get? name s.bindings = none) :
    (lookup name).after s = (.error (.unknownVariable name), s) := by
  rw [lookup, after_bind, after_get]
  simp only [h]
  rfl

theorem after_lookupBuilder {name : String} {s : Session} {c : ClassModel} {b : Builder}
    (h : Assoc.get? name s.bindings = some (.builder c b)) :
    (lookupBuilder name).after s = (.ok (c, b), s) := by
  rw [lookupBuilder, after_bind, after_lookup h]
  rfl

/-- Arguments are evaluated without a change of the session. -/
theorem after_evaluate (a : Argument) (s : Session) : ((evaluate a).after s).2 = s := by
  rcases a with v | name
  · rfl
  · rw [evaluate, after_bind]
    rcases h : Assoc.get? name s.bindings with _ | ⟨c, b⟩ | w
    · rw [after_lookup_none h]
    · rw [after_lookup h]
      rfl
    · rw [after_lookup h]
      rfl

theorem after_languageOf (o : Options) (p : PropertyModel) (rest : List Argument) (s : Session) :
    ((languageOf o p rest).after s).2 = s := by
  rcases rest with _ | ⟨tag, _ | ⟨_, _⟩⟩
  · rfl
  · unfold languageOf
    by_cases h : Emission.takesLanguage o p = true
    · simp only [if_pos h]
      rw [after_bind]
      have heval := after_evaluate tag s
      rcases hv : (evaluate tag).after s with ⟨e | v, t⟩ <;> rw [hv] at heval
      · exact heval
      · simp only [] at heval ⊢
        rw [heval]
        cases v <;> rfl
    · simp only [if_neg h]
      rfl
  · rfl

end Action

/-! ## Setter calls -/

/-- The value and the language tag that a call gives to the setter of a property. -/
def SetterCall.given (s : Session) (p : PropertyModel) (call : SetterCall) :
    Except ActionError (Value × Option String) := do
  let v ← ((Action.evaluate call.value).after s).1
  let tag ← ((Action.languageOf s.package.options p call.rest).after s).1
  return (v, tag)

namespace PropertyModel

/-- How a property keeps values. -/
def keeping (p : PropertyModel) : Keeping := if p.isList then .append else .replace

/-- The term that a property makes of a value and a language tag. -/
def term [Rdf.Datatypes] (p : PropertyModel) (v : Value) (tag : Option String) :
    Except BuildError Term :=
  match p.type with
  | .literal _ datatype => ((v.literal datatype tag).map .literal).mapError .literal
  | _ => v.node.mapError .notANode

end PropertyModel

namespace Builder

/-- What the setter of a property makes of a value. -/
def receive [Platform] (b : Builder) (p : PropertyModel) (v : Value) (tag : Option String) :
    Except BuildError Unit × Builder :=
  match p.term v tag with
  | .ok t => b.keep p.keeping p.rule t
  | .error e => (.error e, b)

/-- The builder with one more value of a property, or with another value of a scalar one. -/
def store (b : Builder) (p : PropertyModel) (t : Term) : Builder :=
  { b with
    values := Assoc.put p.iri (if p.isList then b.valuesOf p.iri ++ [t] else [t]) b.values }

/-- The builder with a place for the values of a property. -/
def place (b : Builder) (p : PropertyModel) : Builder :=
  { b with values := Assoc.put p.iri (b.valuesOf p.iri) b.values }

theorem valuesOf_store (b : Builder) (p : PropertyModel) (t : Term) :
    (b.store p t).valuesOf p.iri = if p.isList then b.valuesOf p.iri ++ [t] else [t] := by
  rw [valuesOf, store, Assoc.get?_put_self]
  rfl

theorem valuesOf_store_of_ne (b : Builder) (p : PropertyModel) (t : Term) {predicate : String}
    (h : predicate ≠ p.iri) : (b.store p t).valuesOf predicate = b.valuesOf predicate := by
  rw [valuesOf, store, Assoc.get?_put_of_ne h]
  rfl

theorem valuesOf_place (b : Builder) (p : PropertyModel) (predicate : String) :
    (b.place p).valuesOf predicate = b.valuesOf predicate := by
  by_cases h : predicate = p.iri
  · subst h
    rw [valuesOf, place, Assoc.get?_put_self]
    rfl
  · rw [valuesOf, place, Assoc.get?_put_of_ne h]
    rfl

theorem check_ok_iff [Platform] {b : Builder} {r : Rule} {t : Term} :
    b.check r t = .ok () ↔ r.valueViolations b.node.text t = .ok [] := by
  rw [check, Rule.firstViolation?]
  rcases r.valueViolations b.node.text t with e | _ | ⟨v, vs⟩ <;> simp [Except.map]

/-- A value is stored if it passes the rule of the property; otherwise it is refused, and the
builder gets a place for the property at most. -/
theorem receive_cases [Platform] (b : Builder) (p : PropertyModel) (v : Value)
    (tag : Option String) :
    (∃ t, p.term v tag = .ok t ∧ p.rule.valueViolations b.node.text t = .ok []
        ∧ b.receive p v tag = (.ok (), b.store p t))
      ∨ ∃ e b', b.receive p v tag = (.error e, b') ∧ (b' = b ∨ b' = b.place p) := by
  rw [receive]
  rcases ht : p.term v tag with e | t
  · exact .inr ⟨e, b, rfl, .inl rfl⟩
  · simp only [keep, PropertyModel.keeping]
    rcases hcheck : b.check p.rule t with e | ⟨⟩
    · -- A list gets its place before the value is checked.
      cases p.isList
      · exact .inr ⟨e, b, rfl, .inl rfl⟩
      · exact .inr ⟨e, b.place p, rfl, .inr rfl⟩
    · refine .inl ⟨t, rfl, check_ok_iff.1 hcheck, ?_⟩
      cases hlist : p.isList <;> simp only [store, hlist] <;> rfl

end Builder

namespace Action

/-- A setter call evaluates its arguments and hands them to the builder. -/
theorem after_callSetter [Platform] (c : ClassModel) (b : Builder) (call : SetterCall)
    (s : Session) :
    (callSetter c b call).after s = (match c.property? call.property with
      | some p => (call.given s p).map fun (v, tag) => b.receive p v tag
      | none => .error (if (builderMembers s.package.options).contains call.property then .badCall
          else .noAttribute), s) := by
  unfold callSetter
  rw [after_bind, after_get]
  simp only []
  rcases hp : c.property? call.property with _ | p
  · simp only [after]
    split_ifs <;> rfl
  · simp only []
    rw [after_bind]
    have heval := after_evaluate call.value s
    rcases hv : (evaluate call.value).after s with ⟨e | v, t⟩ <;> rw [hv] at heval <;>
      simp only [] at heval ⊢ <;> rw [heval]
    · rw [SetterCall.given, hv]
      rfl
    · rw [after_bind]
      have hlang := after_languageOf s.package.options p call.rest s
      rcases htag : (languageOf s.package.options p call.rest).after s with ⟨e | tag, u⟩ <;>
        rw [htag] at hlang <;> simp only [] at hlang ⊢ <;> rw [hlang]
      · rw [SetterCall.given, hv, htag]
        rfl
      · have hgiven : call.given s p = .ok (v, tag) := by
          rw [SetterCall.given, hv, htag]
          rfl
        simp only [hgiven, Except.map, Builder.receive, PropertyModel.term]
        rcases p.type with ⟨type, datatype⟩ | _ | _
        · simp only [after_pure, Builder.keepLiteral]
          rcases v.literal datatype tag with e | l <;> rfl
        · simp only [after_pure, Builder.keepNode]
          rcases v.node with e | l <;> rfl
        · simp only [after_pure, Builder.keepNode]
          rcases v.node with e | l <;> rfl

end Action

namespace SetterCall

/-- Whether a builder accepts a call, and what the call makes of it. -/
def apply [Platform] (s : Session) (c : ClassModel) (b : Builder) (call : SetterCall) :
    Except ActionError Unit × Builder :=
  match c.property? call.property with
  | none => (.error (if (builderMembers s.package.options).contains call.property then .badCall
      else .noAttribute), b)
  | some p =>
    match call.given s p with
    | .error e => (.error e, b)
    | .ok (v, tag) => ((b.receive p v tag).1.mapError .build, (b.receive p v tag).2)

end SetterCall

namespace Assoc

theorem put_of_get? {α : Type} {key : String} {value : α} :
    ∀ {entries : List (String × α)}, get? key entries = some value → put key value entries = entries
  | [], h => by simp [get?] at h
  | (k, v) :: rest, h => by
    rw [get?] at h
    rw [put]
    split_ifs at h ⊢ with hk
    · rw [Option.some.inj h]
    · rw [put_of_get? h]

theorem put_put {α : Type} (key : String) (value other : α) :
    ∀ entries : List (String × α), put key other (put key value entries) = put key other entries
  | [] => by simp [put]
  | (k, v) :: rest => by
    by_cases hk : k = key
    · simp [put, hk]
    · simp [put, hk, put_put key value other rest]

end Assoc

namespace Session

/-- The session with another value of a variable. -/
def rebind (s : Session) (x : String) (v : Variable) : Session :=
  { s with bindings := Assoc.put x v s.bindings }

variable {s : Session} {x : String} {v : Variable}

theorem get?_rebind : Assoc.get? x (s.rebind x v).bindings = some v := Assoc.get?_put_self ..

theorem rebind_self (h : Assoc.get? x s.bindings = some v) : s.rebind x v = s := by
  rw [rebind, Assoc.put_of_get? h]

theorem rebind_rebind (w : Variable) : (s.rebind x v).rebind x w = s.rebind x w := by
  rw [rebind, rebind, rebind, Assoc.put_put]

end Session

namespace Action

/-- A setter call changes the builder that it is made on, and nothing else of the session. -/
theorem after_set [Platform] {x : String} {s : Session} {c : ClassModel} {b : Builder}
    (call : SetterCall) (h : Assoc.get? x s.bindings = some (.builder c b)) :
    (set x call).after s = ((call.apply s c b).1.map fun _ => (call.apply s c b).2,
      s.rebind x (.builder c (call.apply s c b).2)) := by
  have hself := Session.rebind_self h
  unfold set
  rw [after_bind, after_lookup h]
  simp only []
  rw [after_bind, after_callSetter]
  simp only [SetterCall.apply]
  rcases c.property? call.property with _ | p
  · rw [hself]
    rfl
  · simp only []
    rcases call.given s p with e | ⟨v, tag⟩
    · rw [hself]
      rfl
    · simp only [Except.map]
      rw [after_bind, assign, after_modify]
      simp only []
      rw [after_bind, after_ofExcept]
      rcases (b.receive p v tag).1 with e | ⟨⟩ <;> rfl

end Action

end ShapeForge
