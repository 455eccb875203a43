import ShapeForge.Platform.Standard
import ShapeForge.Proofs.CanonicalForms
import ShapeForge.Proofs.RoundTrip

/-!
# Texts of unknown datatypes

A property whose datatype has no scalar type of its own takes texts and reads texts. Its setter
still makes literals of the datatype, and those have a form that the datatype gives them. So the
accessor reads the forms of what was accepted, and reads what was given exactly if the datatype
keeps it (`PropertyModel.textsRead_eq_iff`).
-/

namespace ShapeForge

open Rdf (Literal Term)

/-- The datatypes with a scalar type of their own. -/
def knownDatatypes : List String :=
  ["string", "anyURI", "int", "integer", "double", "float", "boolean"].map Rdf.xsd

/-- The values that a builder keeps of those given to a property: all, or the last. -/
def PropertyModel.counted {α : Type} (p : PropertyModel) (given : List α) : List α :=
  if p.isList then given else given.getLast?.toList

/-- What an accessor reads of texts: each of them once, or the last. -/
def PropertyModel.textsRead (p : PropertyModel) (given : List String) : Reading :=
  p.gathered ((p.counted given).eraseDups.map fun v => .scalar (.text v none))

/-- The text of a call without further arguments. -/
def SetterCall.text? (call : SetterCall) : Option String :=
  match call.value, call.rest with
  | .value (.text v), [] => some v
  | _, _ => none

/-! ## Fallback types -/

theorem ScalarType.ofDatatype_eq_text {d : String} (h : d ∉ knownDatatypes) :
    ofDatatype (some d) = .text ∧ d ≠ Rdf.xsd "string" := by
  simp only [knownDatatypes, List.map_cons, List.map_nil, List.mem_cons, List.not_mem_nil,
    or_false, not_or] at h
  simp [ofDatatype, h]

/-- A property of an unknown datatype has texts for values. -/
theorem Ontology.type_of_unknown {o : Ontology} {c : ClassModel} (hc : c ∈ o.resolve.1)
    {p : PropertyModel} (hp : p ∈ c.properties) {d : String} (hd : p.type.datatype = some d)
    (hunknown : d ∉ knownDatatypes) : p.type = .literal .text (some d) := by
  obtain ⟨-, -, shape, -, hmodels⟩ := exists_declaration c hc p hp
  rw [hmodels.type, PropertyShape.targetType] at hd ⊢
  split_ifs at hd ⊢
  · split at hd <;> simp [TargetType.datatype] at hd
  · simp only [TargetType.datatype] at hd
    simp only [hd, (ScalarType.ofDatatype_eq_text hunknown).1]

/-! ## Accepted texts -/

namespace SetterCall

variable {call : SetterCall} {s : Session} {c : ClassModel} {node t : Term} {p : PropertyModel}
  {d : String}

theorem of_text? {v : String} (h : call.text? = some v) :
    call.value = .value (.text v) ∧ call.tag = none := by
  unfold text? at h
  split at h
  · rename_i hvalue hrest
    obtain rfl := Option.some.inj h
    exact ⟨hvalue, by rw [tag, hrest]; rfl⟩
  · simp at h

/-- An accepted text has been made a literal of the datatype. -/
theorem Sets.term_of_text [Platform] (h : call.Sets s c node p t)
    (htype : p.type = .literal .text (some d))
    (hstring : d ≠ Rdf.xsd "string") {v : String} (hv : call.text? = some v) :
    t = .literal (.typed v d) := by
  obtain ⟨hvalue, htag⟩ := of_text? hv
  obtain ⟨w, tag, hgiven, hterm⟩ := h.term
  obtain ⟨rfl, rfl, -⟩ := given_of_value hvalue hgiven
  rw [PropertyModel.term, htype, htag] at hterm
  simpa [Value.literal, hstring, Value.lexical, Except.map, Except.mapError] using hterm.symm

theorem terms_of_texts [Platform] (htype : p.type = .literal .text (some d))
    (hstring : d ≠ Rdf.xsd "string") {given : List SetterCall} {ts : List Term}
    (hall : List.Forall₂ (fun call t => ∃ s, call.Sets s c node p t) given ts)
    (hgiven : ∀ call ∈ given, call.text?.isSome = true) :
    ts = (given.filterMap text?).map fun v => .literal (.typed v d) := by
  induction hall with
  | nil => rfl
  | @cons call t given ts hsets _ ih =>
    obtain ⟨v, hv⟩ := Option.isSome_iff_exists.1 (hgiven call List.mem_cons_self)
    obtain ⟨s, hsets⟩ := hsets
    rw [List.filterMap_cons_some hv, List.map_cons, hsets.term_of_text htype hstring hv,
      ih fun a ha => hgiven a (List.mem_cons_of_mem _ ha)]

end SetterCall

/-! ## Texts that are read -/

/-- Literals of one datatype repeat each other if their texts are equal. -/
theorem eraseDupsBy_typed [Rdf.Datatypes] (d : String) (given : List String) :
    (given.map fun v => Literal.typed v d).eraseDupsBy sameLiteral
      = (given.map fun v => (Literal.typed v d).lexical).eraseDups.map
        fun v => { lexical := v, datatype := some d } := by
  have hmap : (given.map fun v => Literal.typed v d)
      = (given.map fun v => (Literal.typed v d).lexical).map
        fun v => { lexical := v, datatype := some d } := by
    rw [List.map_map]
    rfl
  have hsame : (fun a b => sameLiteral { lexical := a, datatype := some d }
      { lexical := b, datatype := some d }) = fun a b : String => a == b := by
    funext a b
    rw [sameLiteral_eq, Bool.eq_iff_iff]
    simp [Literal.folded]
  rw [hmap, Rdf.eraseDupsBy_map, hsame]
  rfl

theorem eraseDups_concat (l : List String) (a : String) :
    (l ++ [a]).eraseDups = if a ∈ l then l.eraseDups else l.eraseDups ++ [a] := by
  rw [List.eraseDups_append]
  by_cases h : a ∈ l <;> simp [h, List.removeAll, List.eraseDups_cons]

theorem length_eraseDups_map_le (f : String → String) (l : List String) :
    (l.map f).eraseDups.length ≤ l.eraseDups.length := by
  induction l using List.reverseRecOn with
  | nil => simp
  | append_singleton l a ih =>
    rw [List.map_append, List.map_singleton, eraseDups_concat, eraseDups_concat]
    by_cases h : a ∈ l
    · simpa [h, List.mem_map_of_mem h] using ih
    · split_ifs <;> simp <;> omega

/-- Where a change of texts leaves the different ones in place, it changes none. -/
theorem eq_of_eraseDups_map {f : String → String} {l : List String}
    (h : (l.map f).eraseDups = l.eraseDups) : ∀ v ∈ l, f v = v := by
  induction l using List.reverseRecOn with
  | nil => simp
  | append_singleton l a ih =>
    rw [List.map_append, List.map_singleton, eraseDups_concat, eraseDups_concat] at h
    rw [List.forall_mem_append, List.forall_mem_singleton]
    by_cases ha : a ∈ l
    · rw [if_pos ha, if_pos (List.mem_map_of_mem ha)] at h
      exact ⟨ih h, ih h a ha⟩
    · rw [if_neg ha] at h
      split_ifs at h
      · -- Then the change would make more texts of fewer.
        have hlength := congrArg List.length h
        have hle := length_eraseDups_map_le f l
        rw [List.length_append, List.length_singleton] at hlength
        omega
      · obtain ⟨hl, hlast⟩ := List.append_inj' h rfl
        exact ⟨ih hl, List.singleton_injective hlast⟩

namespace PropertyModel

variable (p : PropertyModel)

theorem counted_map {α β : Type} (f : α → β) (given : List α) :
    p.counted (given.map f) = (p.counted given).map f := by
  unfold counted
  split_ifs
  · rfl
  · rw [List.getLast?_map]
    cases given.getLast? <;> rfl

/-- Texts that are changed are read differently. -/
theorem eq_of_textsRead_map_eq {f : String → String} {given : List String}
    (h : p.textsRead (given.map f) = p.textsRead given) : ∀ v ∈ p.counted given, f v = v := by
  have hinj : Function.Injective fun v : String => Reading.scalar (.text v none) := by
    intro a b hab
    simpa using hab
  unfold textsRead gathered at h
  rw [counted_map] at h
  split_ifs at h with hlist
  · exact eq_of_eraseDups_map (List.map_injective_iff.2 hinj (Reading.list.inj h))
  · rw [counted, if_neg hlist] at h ⊢
    generalize given.getLast? = last at h ⊢
    rcases last with _ | a
    · simp
    · simpa [List.eraseDups_cons] using h

theorem textsRead_eq_iff [Rdf.Datatypes] {d : String} {given : List String} :
    p.textsRead (given.map fun v => (Literal.typed v d).lexical) = p.textsRead given ↔
      ∀ v ∈ p.counted given, Rdf.Keeps d v := by
  simp only [← Literal.lexical_typed_eq_iff]
  constructor
  · exact p.eq_of_textsRead_map_eq
  · intro h
    have hsame : (p.counted given).map (fun v => (Literal.typed v d).lexical)
        = p.counted given :=
      (List.map_congr_left h).trans (List.map_id _)
    rw [textsRead, counted_map, hsame, textsRead]

end PropertyModel

namespace Ontology

variable {o : Ontology} {c : ClassModel}

/-- A class with a number of a datatype that literals know, and marks of one that they do not. -/
def coded : Ontology where
  shapes :=
    [⟨"s", "http://ex.org/P",
      [{ path := "http://ex.org/n", name := "n", datatype := some (Rdf.xsd "long")
         constraints := { maxCount := some 1 } },
       { path := "http://ex.org/m", name := "m", datatype := some "http://ex.org/mark" }]⟩]
  classes := [⟨"http://ex.org/P", "P", []⟩]

def codeCalls : List SetterCall :=
  [{ property := "n", value := .value (.text "01") },
   { property := "m", value := .value (.text " 01") }]

section

attribute [local instance] Platform.standard

end

end Ontology

end ShapeForge
