import ShapeForge.Platform.Standard
import ShapeForge.Proofs.ContextEntries
import ShapeForge.Proofs.EnumerationOrder

/-!
# The order of keys in a context

A context object is taken in one scope, which is looked up in it, and its entries do not see each
other. So objects with the same keys and values in another order do the same to contexts that mean
the same (`Context.takeObject_alike`): both are refused, or both give contexts that mean the same
(`Context.Alike`). From object to object this goes through a whole document.
-/

namespace ShapeForge

/-! ## Outcomes -/

/-- Both computations fail, or their results are related. -/
inductive SameOutcome {ε α β : Type} (R : α → β → Prop) : Except ε α → Except ε β → Prop
  | ok {a : α} {b : β} : R a b → SameOutcome R (.ok a) (.ok b)
  | error (e e' : ε) : SameOutcome R (.error e) (.error e')

namespace SameOutcome

variable {ε α β γ δ : Type} {R : α → β → Prop} {S : γ → δ → Prop}

theorem refl {R : α → α → Prop} (h : ∀ a, R a a) (x : Except ε α) : SameOutcome R x x := by
  rcases x with e | a
  · exact .error e e
  · exact .ok (h a)

theorem trans {T : α → γ → Prop} {S : β → γ → Prop} {x : Except ε α} {y : Except ε β}
    {z : Except ε γ} (hxy : SameOutcome R x y) (hyz : SameOutcome S y z)
    (h : ∀ a b c, R a b → S b c → T a c) : SameOutcome T x z := by
  cases hxy with
  | ok hab =>
    cases hyz with
    | ok hbc => exact .ok (h _ _ _ hab hbc)
  | error e e' =>
    cases hyz with
    | error _ e'' => exact .error e e''

theorem bind {x : Except ε α} {y : Except ε β} {f : α → Except ε γ} {g : β → Except ε δ}
    (h : SameOutcome R x y) (hfg : ∀ a b, R a b → SameOutcome S (f a) (g b)) :
    SameOutcome S (x.bind f) (y.bind g) := by
  cases h with
  | ok hab => exact hfg _ _ hab
  | error e e' => exact .error e e'

theorem map {x : Except ε α} {y : Except ε β} {f : α → γ} {g : β → δ}
    (h : SameOutcome R x y) (hfg : ∀ a b, x = .ok a → R a b → S (f a) (g b)) :
    SameOutcome S (x.map f) (y.map g) := by
  cases h with
  | ok hab => exact .ok (hfg _ _ rfl hab)
  | error e e' => exact .error e e'

theorem mapM_forall₂ {f : α → Except ε γ} {g : β → Except ε δ} {xs : List α} {ys : List β}
    (h : List.Forall₂ (fun a b => SameOutcome S (f a) (g b)) xs ys) :
    SameOutcome (List.Forall₂ S) (xs.mapM f) (ys.mapM g) := by
  induction h with
  | nil => exact .ok .nil
  | cons hab _ ih =>
    rw [List.mapM_cons, List.mapM_cons]
    exact hab.bind fun _ _ hfirst => ih.bind fun _ _ hrest => .ok (.cons hfirst hrest)

theorem mapM_perm {xs ys : List α} (f : α → Except ε γ) (h : xs.Perm ys) :
    SameOutcome List.Perm (xs.mapM f) (ys.mapM f) := by
  rcases hys : ys.mapM f with e | bs
  · rcases hxs : xs.mapM f with e' | as
    · exact .error e' e
    · obtain ⟨bs, hbs, -⟩ := exists_mapM_ok_of_perm h.symm hxs
      rw [hbs] at hys
      cases hys
  · obtain ⟨as, has, hperm⟩ := exists_mapM_ok_of_perm h hys
    rw [has]
    exact .ok hperm

theorem foldlM {f : γ → α → Except ε γ} {g : δ → β → Except ε δ} {xs : List α} {ys : List β}
    (h : List.Forall₂ R xs ys)
    (hstep : ∀ a b c d, R a b → S c d → SameOutcome S (f c a) (g d b)) {c : γ} {d : δ}
    (hcd : S c d) : SameOutcome S (xs.foldlM f c) (ys.foldlM g d) := by
  induction h generalizing c d with
  | nil => exact .ok hcd
  | cons hab _ ih =>
    rw [List.foldlM_cons, List.foldlM_cons]
    exact (hstep _ _ _ _ hab hcd).bind fun _ _ hnext => ih hnext

end SameOutcome

theorem optionRel_or {α β : Type} {R : α → β → Prop} {a a' : Option α} {b b' : Option β}
    (h : Option.Rel R a b) (h' : Option.Rel R a' b') : Option.Rel R (a.or a') (b.or b') := by
  cases h with
  | some hab => exact .some hab
  | none => exact h'

theorem forall₂_filterMap_of_rel {α β γ δ : Type} {R : α → β → Prop} {S : γ → δ → Prop}
    {f : α → Option γ} {g : β → Option δ} {xs : List α} {ys : List β} (h : List.Forall₂ R xs ys)
    (hfg : ∀ a b, R a b → Option.Rel S (f a) (g b)) :
    List.Forall₂ S (xs.filterMap f) (ys.filterMap g) := by
  induction h with
  | nil => exact .nil
  | @cons a b _ _ hab _ ih =>
    have hrel := hfg a b hab
    rw [List.filterMap_cons, List.filterMap_cons]
    revert hrel
    generalize f a = x
    generalize g b = y
    intro hrel
    cases hrel with
    | none => exact ih
    | some hcd => exact .cons hcd ih

/-! ## Contexts that mean the same -/

open Json (Reordered)

/-- Definitions with the same identifier and type, and with containers that are the same up to the
order of fields. -/
structure TermDefinition.Alike (a b : TermDefinition) : Prop where
  id : a.id = b.id
  type : a.type = b.type
  container : Reordered a.container b.container

namespace Context

/-- Contexts that are the same as maps. -/
structure Alike (c d : Context) : Prop where
  prefixes : ∀ key, Assoc.get? key c.prefixes = Assoc.get? key d.prefixes
  types : ∀ key, Assoc.get? key c.types = Assoc.get? key d.types
  terms : ∀ key, Option.Rel TermDefinition.Alike (Assoc.get? key c.terms) (Assoc.get? key d.terms)
  base : c.base = d.base
  vocab : c.vocab = d.vocab

/-- Entries that add the same. -/
inductive Entry.Alike : Entry → Entry → Prop
  | nothing : Alike .nothing .nothing
  | type (iri : String) : Alike (.type iri) (.type iri)
  | term {a b : TermDefinition} : a.Alike b → Alike (.term a) (.term b)

theorem Entry.type?_of_rel {x y : Option Entry} (h : Option.Rel Entry.Alike x y) :
    x.bind Entry.type? = y.bind Entry.type? := by
  cases h with
  | none => rfl
  | some he => cases he <;> rfl

theorem Entry.term?_of_rel {x y : Option Entry} (h : Option.Rel Entry.Alike x y) :
    Option.Rel TermDefinition.Alike (x.bind Entry.term?) (y.bind Entry.term?) := by
  cases h with
  | none => exact .none
  | some he =>
    cases he with
    | term hab => exact .some hab
    | _ => exact .none

variable {c d : Context} {fields fields' : List (String × Json)}

theorem Alike.expand_eq (h : c.Alike d) : c.expand = d.expand :=
  expand_congr h.prefixes h.base h.vocab

theorem text?_of_rel {x y : Option Json} (h : Option.Rel Reordered x y) :
    x.bind Json.text? = y.bind Json.text? := by
  cases h with
  | none => rfl
  | some hv => cases hv <;> rfl

theorem prefixOf?_of_rel {x y : Option Json} (h : Option.Rel Reordered x y) (key : String) :
    x.bind (prefixOf? key) = y.bind (prefixOf? key) := by
  cases h with
  | none => rfl
  | some hv => cases hv <;> rfl

/-- The scopes of objects that are alike mean the same. -/
theorem Alike.scope (h : c.Alike d) (hdistinct : fields.Pairwise (·.1 ≠ ·.1))
    (hfields : Assoc.Alike Reordered fields fields') :
    (c.scope fields).Alike (d.scope fields') where
  prefixes key := by
    rw [get?_scope c fields hdistinct, get?_scope d fields' (hfields.distinct hdistinct),
      prefixOf?_of_rel (hfields.get? hdistinct key), h.prefixes]
  types key := by rw [scope_types, scope_types, h.types]
  terms key := by
    rw [scope_terms, scope_terms]
    exact h.terms key
  base := by rw [scope_base, scope_base, text?_of_rel (hfields.get? hdistinct "@base"), h.base]
  vocab := by
    rw [scope_vocab, scope_vocab, text?_of_rel (hfields.get? hdistinct "@vocab"), h.vocab]

theorem expandJson_reordered (c : Context) {v w : Json} (h : Reordered v w) :
    c.expandJson v = c.expandJson w := by
  cases h <;> rfl

theorem termType_reordered (c : Context) {x y : Option Json} (h : Option.Rel Reordered x y) :
    c.termType x = c.termType y := by
  cases h with
  | none => rfl
  | some hv => cases hv <;> rfl

theorem container_reordered {x y : Option Json} (h : Option.Rel Reordered x y) :
    Reordered (x.getD .null) (y.getD .null) := by
  cases h with
  | none => exact .refl _
  | some hv => exact hv

theorem definitionOf_reordered (c : Context) {id id' type type' container container' : Option Json}
    (hid : Option.Rel Reordered id id') (htype : Option.Rel Reordered type type')
    (hcontainer : Option.Rel Reordered container container') :
    SameOutcome Entry.Alike (c.definitionOf id type container)
      (c.definitionOf id' type' container') := by
  cases hid with
  | none => exact .ok .nothing
  | @some v w hv =>
    by_cases hnull : v = .null
    · subst hnull
      rw [hv.of_null]
      exact .ok .nothing
    · have hnull' : w ≠ .null := by
        rintro rfl
        cases hv
        exact hnull rfl
      rw [c.definitionOf_some hnull, c.definitionOf_some hnull', c.termType_reordered htype,
        c.expandJson_reordered hv]
      refine (SameOutcome.refl (fun _ => rfl) _).bind (R := Eq) fun t _ ht => ?_
      refine (SameOutcome.refl (fun _ => rfl) _).map (R := Eq) fun iri _ _ hiri => ?_
      exact .term ⟨hiri, ht, container_reordered hcontainer⟩

/-- Entries whose values are the same up to the order of fields add the same. -/
theorem entryOf_reordered (c : Context) (key : String) {v w : Json} (hv : v.KeysDistinct)
    (h : Reordered v w) :
    SameOutcome Entry.Alike (c.entryOf key v) (c.entryOf key w) := by
  have hrefl : ∀ entry : Entry, entry.Alike entry := by
    intro entry
    cases entry with
    | nothing => exact .nothing
    | type iri => exact .type iri
    | term definition => exact .term ⟨rfl, rfl, .refl _⟩
  cases h with
  | refl => exact .refl hrefl _
  | list _ => exact .refl hrefl (c.entryOf key (.list []))
  | object hkeys hvalues hperm =>
    have hfields : Assoc.Alike Reordered _ _ := ⟨_, Reordered.forall₂_fields hkeys hvalues, hperm⟩
    cases hv with
    | object hdistinct _ =>
      have hlook := hfields.get? hdistinct
      rw [entryOf, entryOf]
      split_ifs
      · exact .ok .nothing
      · exact c.definitionOf_reordered (hlook "@id") (hlook "@type") (hlook "@container")

/-! ## Objects -/

/-- What entries add comes under their keys. -/
theorem additions_keys {entries : List (String × Entry)} (h : c.additions fields = .ok entries) :
    entries.map (·.1) = fields.map (·.1) := by
  induction fields generalizing entries with
  | nil =>
    rw [← Except.ok.inj h]
    rfl
  | cons e fields ih =>
    rw [additions_cons] at h
    rcases hentry : c.entryOf e.1 e.2 with error | entry
    · rw [hentry] at h
      cases h
    · rcases hrest : c.additions fields with error | rest
      · rw [hentry, hrest] at h
        cases h
      · rw [hentry, hrest] at h
        rw [← Except.ok.inj h, List.map_cons, List.map_cons, ih hrest]

theorem additions_alike (hexpand : c.expand = d.expand)
    (hv : ∀ e ∈ fields, e.2.KeysDistinct) (hfields : Assoc.Alike Reordered fields fields') :
    SameOutcome (Assoc.Alike Entry.Alike) (c.additions fields) (d.additions fields') := by
  obtain ⟨reread, hvalues, hperm⟩ := hfields
  have hforall : List.Forall₂ (fun a b : String × Json => SameOutcome
      (fun x y : String × Entry => x.1 = y.1 ∧ x.2.Alike y.2)
      ((c.entryOf a.1 a.2).map (Prod.mk a.1)) ((c.entryOf b.1 b.2).map (Prod.mk b.1)))
      fields reread := by
    refine ((List.forall₂_and_left _ _).2 ⟨hv, hvalues⟩).imp fun a b hab => ?_
    obtain ⟨hdistinct, hkey, hreordered⟩ := hab
    rw [← hkey]
    exact (c.entryOf_reordered a.1 hdistinct hreordered).map fun _ _ _ halike => ⟨rfl, halike⟩
  have hread : SameOutcome (List.Forall₂ fun x y : String × Entry => x.1 = y.1 ∧ x.2.Alike y.2)
      (c.additions fields) (c.additions reread) := SameOutcome.mapM_forall₂ hforall
  have hmoved : SameOutcome List.Perm (c.additions reread) (c.additions fields') :=
    SameOutcome.mapM_perm _ hperm
  rw [← additions_congr hexpand]
  exact hread.trans hmoved fun _ entries _ hentries hp => ⟨entries, hentries, hp⟩

theorem Alike.addAll (h : c.Alike d) {entries entries' : List (String × Entry)}
    (hdistinct : entries.Pairwise (·.1 ≠ ·.1)) (he : Assoc.Alike Entry.Alike entries entries') :
    (c.addAll entries).Alike (d.addAll entries') := by
  have hdistinct' := he.distinct hdistinct
  have hc := c.addAll_eq entries
  have hd := d.addAll_eq entries'
  constructor
  · rw [hc, hd]
    exact h.prefixes
  · intro key
    rw [get?_addAll key (get?_types_add key) c hdistinct,
      get?_addAll key (get?_types_add key) d hdistinct', h.types,
      Entry.type?_of_rel (he.get? hdistinct key)]
  · intro key
    rw [get?_addAll key (get?_terms_add key) c hdistinct,
      get?_addAll key (get?_terms_add key) d hdistinct']
    exact optionRel_or (Entry.term?_of_rel (he.get? hdistinct key)) (h.terms key)
  · rw [hc, hd]
    exact h.base
  · rw [hc, hd]
    exact h.vocab

/-- Objects that are the same up to the order of fields do the same to contexts that mean the
same. -/
theorem takeObject_alike (h : c.Alike d) (hv : (Json.object fields).KeysDistinct)
    (hfields : Assoc.Alike Reordered fields fields') :
    SameOutcome Alike (c.takeObject fields) (d.takeObject fields') := by
  cases hv with
  | object hdistinct hvalues =>
    have hscope := h.scope hdistinct hfields
    have hadd := additions_alike hscope.expand_eq hvalues hfields
    rw [takeObject_eq, takeObject_eq]
    refine hadd.map fun entries entries' hentries halike => hscope.addAll ?_ halike
    refine List.pairwise_map.1 (?_ : (entries.map (·.1)).Nodup)
    rw [additions_keys hentries]
    exact List.pairwise_map.2 hdistinct

/-! ## Documents -/

theorem objectsOf_alike {x y : Option Json} (hx : ∀ v ∈ x, v.KeysDistinct)
    (h : Option.Rel Reordered x y) :
    SameOutcome (List.Forall₂ fun xs zs => (Json.object xs).KeysDistinct
      ∧ Assoc.Alike Reordered xs zs) (objectsOf x) (objectsOf y) := by
  cases h with
  | none => exact .ok .nil
  | @some v w h =>
    have hv := hx v rfl
    cases v with
    | object fields =>
      obtain ⟨fields', rfl, hfields⟩ := h.of_object
      exact .ok (.cons ⟨hv, hfields⟩ .nil)
    | list items =>
      obtain ⟨items', rfl, hitems⟩ := h.of_list
      cases hv with
      | list hdistinct =>
        have hboth := (List.forall₂_and_left _ _).2 ⟨hdistinct, hitems⟩
        refine .ok (forall₂_filterMap_of_rel hboth fun a b hab => ?_)
        cases a with
        | object fields =>
          obtain ⟨fields', rfl, hfields⟩ := hab.2.of_object
          exact .some ⟨hab.1, hfields⟩
        | list items =>
          obtain ⟨items', rfl, -⟩ := hab.2.of_list
          exact .none
        | _ =>
          cases hab.2
          exact .none
    | text s =>
      rw [h.of_text]
      exact .error _ _
    | _ =>
      cases h
      exact .ok .nil

theorem alike_empty : Alike {} {} :=
  ⟨fun _ => rfl, fun _ => rfl, fun _ => .none, rfl, rfl⟩

theorem ofDocument_alike {document document' : Json} (hdistinct : document.KeysDistinct)
    (h : Reordered document document') :
    SameOutcome Alike (ofDocument document) (ofDocument document') := by
  cases document with
  | object fields =>
    obtain ⟨fields', rfl, hfields⟩ := h.of_object
    cases hdistinct with
    | object hkeys hvalues =>
      have hcontext : ∀ v ∈ Assoc.get? "@context" fields, v.KeysDistinct := fun v hv =>
        hvalues _ (Assoc.mem_of_get? hv)
      have hvalue := hfields.get? hkeys "@context"
      refine (objectsOf_alike hcontext hvalue).bind fun xs zs hobjects => ?_
      have htaken : SameOutcome Alike (xs.foldlM takeObject {}) (zs.foldlM takeObject {}) :=
        SameOutcome.foldlM hobjects
          (fun _ _ _ _ hobject hcd => takeObject_alike hcd hobject.1 hobject.2) alike_empty
      cases hobjects with
      | nil => exact .error _ _
      | cons _ _ => exact htaken
  | list items =>
    obtain ⟨items', rfl, -⟩ := h.of_list
    exact .error _ _
  | _ =>
    cases h
    exact .error _ _

end Context

/-- A document that is given as a text, or as a value in which no object has a key twice. -/
inductive Json.Decodes [Platform] : Json → Json → Prop
  | text {s : String} {document : Json} : Json.read Platform.jsonDepth s = .ok document →
    Decodes (.text s) document
  | document {v : Json} : (∀ s, v ≠ .text s) → v.KeysDistinct → Decodes v v

theorem Context.ofJson_of_decodes [Platform] {input document : Json} (h : input.Decodes document) :
    ofJson input = ofDocument document ∧ document.KeysDistinct := by
  cases h with
  | text hread =>
    rw [ofJson, ofText, decode, hread]
    exact ⟨rfl, Json.keysDistinct_of_read hread⟩
  | document htext hdistinct =>
    refine ⟨?_, hdistinct⟩
    cases input with
    | text s => exact absurd rfl (htext s)
    | _ => rfl

/-- Documents that are the same up to the order of keys give no context, both of them, or contexts
that are the same as maps. -/
theorem Context.key_order_free [Platform] {input input' document document' : Json}
    (h : input.Decodes document) (h' : input'.Decodes document')
    (hsame : Reordered document document') :
    SameOutcome Alike (ofJson input) (ofJson input') := by
  obtain ⟨heq, hdistinct⟩ := ofJson_of_decodes h
  rw [heq, (ofJson_of_decodes h').1]
  exact ofDocument_alike hdistinct hsame

/-- Two context objects, of which the first uses a prefix before it is defined and the second gives
the prefix another meaning. -/
def redefiningContext : Json := .object [("@context", .list [
  .object [("T", .text "e:T"), ("e", .text "http://e/"),
    ("n", .object [("@id", .text "e:n"), ("@type", .text "@id")])],
  .object [("e", .text "http://f/"), ("U", .text "e:U")]])]

/-- The same objects with their keys in another order. -/
def reorderedContext : Json := .object [("@context", .list [
  .object [("n", .object [("@type", .text "@id"), ("@id", .text "e:n")]),
    ("T", .text "e:T"), ("e", .text "http://e/")],
  .object [("U", .text "e:U"), ("e", .text "http://f/")]])]

section

attribute [local instance] Platform.standard

theorem Context.redefiningContext_order_free :
    redefiningContext.Decodes redefiningContext ∧ reorderedContext.Decodes reorderedContext
      ∧ Reordered redefiningContext reorderedContext
      ∧ SameOutcome Alike (ofJson redefiningContext) (ofJson reorderedContext)
      ∧ ((ofJson redefiningContext).toOption.map fun c => (c.types, c.prefixes))
        = some ([("T", "http://e/T"), ("U", "http://f/U")], [("e", "http://f/")]) := by
  have hsmall {a b : String × Json} (hab : a.1 ≠ b.1) (ha : a.2.KeysDistinct)
      (hb : b.2.KeysDistinct) : (Json.object [a, b]).KeysDistinct :=
    .object (by simpa using hab) (by simp [ha, hb])
  have hlarge {a b c : String × Json} (hkeys : [a, b, c].Pairwise (·.1 ≠ ·.1))
      (ha : a.2.KeysDistinct) (hb : b.2.KeysDistinct) (hc : c.2.KeysDistinct) :
      (Json.object [a, b, c]).KeysDistinct :=
    .object hkeys (by simp [ha, hb, hc])
  have hdocument {v w : Json} (hv : v.KeysDistinct) (hw : w.KeysDistinct) :
      (Json.object [("@context", .list [v, w])]).KeysDistinct :=
    .object (by simp) (by simpa using .list (by simp [hv, hw]))
  have hfirst : redefiningContext.Decodes redefiningContext :=
    .document nofun (hdocument
      (hlarge (by decide) (.text _) (.text _) (hsmall (by decide) (.text _) (.text _)))
      (hsmall (by decide) (.text _) (.text _)))
  have hsecond : reorderedContext.Decodes reorderedContext :=
    .document nofun (hdocument
      (hlarge (by decide) (hsmall (by decide) (.text _) (.text _)) (.text _) (.text _))
      (hsmall (by decide) (.text _) (.text _)))
  have hterm : Reordered (.object [("@id", .text "e:n"), ("@type", .text "@id")])
      (.object [("@type", .text "@id"), ("@id", .text "e:n")]) :=
    .object rfl (.cons (.refl _) (.cons (.refl _) .nil)) (.swap _ _ _)
  have hprefix : Reordered (.object [("e", .text "http://f/"), ("U", .text "e:U")])
      (.object [("U", .text "e:U"), ("e", .text "http://f/")]) :=
    .object rfl (.cons (.refl _) (.cons (.refl _) .nil)) (.swap _ _ _)
  have htypes := @Reordered.object
    [("T", .text "e:T"), ("e", .text "http://e/"),
      ("n", .object [("@id", .text "e:n"), ("@type", .text "@id")])]
    [("T", .text "e:T"), ("e", .text "http://e/"),
      ("n", .object [("@type", .text "@id"), ("@id", .text "e:n")])]
    _ rfl (.cons (.refl _) (.cons (.refl _) (.cons hterm .nil)))
    (.trans (.cons _ (.swap _ _ _)) (.swap _ _ _))
  have hsame : Reordered redefiningContext reorderedContext :=
    .object (by rfl) (by exact .cons (.list (.cons htypes (.cons hprefix .nil))) .nil) (.refl _)
  exact ⟨hfirst, hsecond, hsame, key_order_free hfirst hsecond hsame, by cbv⟩

end

end ShapeForge
