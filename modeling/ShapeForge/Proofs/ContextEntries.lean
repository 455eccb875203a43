import ShapeForge.Context.Reader
import ShapeForge.Proofs.FieldOrder

/-!
# Entries of a context

The prefixes, the base and the vocabulary of a context object are looked up in it
(`Context.get?_scope`, `Context.scope_base`). An entry needs the context only to expand terms, and
adds at most one type or one definition under its key (`Context.takeEntry_eq`). So the entries of
an object do not see each other, and together they add what each adds by itself
(`Context.foldlM_takeEntry`).
-/

namespace ShapeForge

namespace Context

/-! ## Prefixes and defaults -/

/-- The namespace that an entry gives a prefix. -/
def prefixOf? (key : String) (value : Json) : Option String :=
  value.text?.filter fun iri => !(key.startsWith "@" || key.contains ':' || !isNamespace iri)

theorem addPrefixes_cons (c : Context) (e : String × Json) (fields : List (String × Json)) :
    c.addPrefixes (e :: fields)
      = addPrefixes { c with prefixes := ((prefixOf? e.1 e.2).map fun iri =>
          Assoc.put e.1 iri c.prefixes).getD c.prefixes } fields := by
  obtain ⟨key, value⟩ := e
  rw [addPrefixes, List.foldl_cons, ← addPrefixes]
  congr 1
  cases value with
  | text iri =>
    by_cases h : (key.startsWith "@" || key.contains ':' || !isNamespace iri) = true
    · have hnone : prefixOf? key (.text iri) = none := by
        rw [prefixOf?, Json.text?, Option.filter_some, h]
        rfl
      rw [hnone]
      exact if_pos h
    · have hsome : prefixOf? key (.text iri) = some iri := by
        rw [prefixOf?, Json.text?, Option.filter_some, Bool.eq_false_iff.2 h]
        rfl
      rw [hsome]
      exact if_neg h
  | _ => rfl

theorem addPrefixes_eq (c : Context) (fields : List (String × Json)) :
    c.addPrefixes fields = { c with prefixes := (c.addPrefixes fields).prefixes } := by
  induction fields generalizing c with
  | nil => rfl
  | cons e fields ih =>
    rw [addPrefixes_cons]
    exact ih _

theorem get?_eq_none_of_head {α : Type} {k : String} {v : α} {entries : List (String × α)}
    (h : ((k, v) :: entries).Pairwise (·.1 ≠ ·.1)) : Assoc.get? k entries = none := by
  rw [Assoc.get?_eq_none_iff]
  intro hmem
  obtain ⟨e, he, rfl⟩ := List.mem_map.1 hmem
  exact (List.pairwise_cons.1 h).1 e he rfl

theorem get?_addPrefixes (key : String) : ∀ {fields : List (String × Json)} (c : Context),
    fields.Pairwise (·.1 ≠ ·.1) → Assoc.get? key (c.addPrefixes fields).prefixes
      = ((Assoc.get? key fields).bind (prefixOf? key)).or (Assoc.get? key c.prefixes)
  | [], c, _ => rfl
  | (k, value) :: fields, c, h => by
    rw [addPrefixes_cons, get?_addPrefixes key _ h.of_cons, Assoc.get?]
    split_ifs with he
    · subst he
      rw [get?_eq_none_of_head h]
      cases hp : prefixOf? k value <;> simp [hp, Assoc.get?_put_self]
    · congr 1
      cases prefixOf? k value with
      | none => rfl
      | some iri => exact Assoc.get?_put_of_ne (Ne.symm he) iri c.prefixes

theorem takeDefaults_eq (c : Context) (fields : List (String × Json)) : c.takeDefaults fields
    = { c with
        base := ((Assoc.get? "@base" fields).bind Json.text?).or c.base
        vocab := ((Assoc.get? "@vocab" fields).bind Json.text?).or c.vocab } := by
  unfold takeDefaults
  rcases Assoc.get? "@base" fields with _ | (_ | _ | _ | _ | _ | _ | _) <;>
    rcases Assoc.get? "@vocab" fields with _ | (_ | _ | _ | _ | _ | _ | _) <;> rfl

section Scope

variable (c : Context) (fields : List (String × Json))

/-- The context in which the entries of an object are taken. -/
def scope : Context := (c.addPrefixes fields).takeDefaults fields

/-- A prefix means what the object says, or else what it meant before. -/
theorem get?_scope (h : fields.Pairwise (·.1 ≠ ·.1)) (key : String) :
    Assoc.get? key (c.scope fields).prefixes
      = ((Assoc.get? key fields).bind (prefixOf? key)).or (Assoc.get? key c.prefixes) := by
  rw [scope, takeDefaults_eq]
  exact get?_addPrefixes key c h

theorem scope_base : (c.scope fields).base
    = ((Assoc.get? "@base" fields).bind Json.text?).or c.base := by
  rw [scope, takeDefaults_eq, addPrefixes_eq]

theorem scope_vocab : (c.scope fields).vocab
    = ((Assoc.get? "@vocab" fields).bind Json.text?).or c.vocab := by
  rw [scope, takeDefaults_eq, addPrefixes_eq]

theorem scope_types : (c.scope fields).types = c.types := by
  rw [scope, takeDefaults_eq, addPrefixes_eq]

theorem scope_terms : (c.scope fields).terms = c.terms := by
  rw [scope, takeDefaults_eq, addPrefixes_eq]

end Scope

/-! ## Expansion in another context -/

theorem expand_congr {c d : Context}
    (hprefixes : ∀ key, Assoc.get? key c.prefixes = Assoc.get? key d.prefixes)
    (hbase : c.base = d.base) (hvocab : c.vocab = d.vocab) : c.expand = d.expand := by
  funext term
  have hplain : c.expandPlain term = d.expandPlain term := by
    rw [expandPlain, expandPlain, hbase, hvocab]
  unfold expand
  rw [hplain]
  simp only [hprefixes]

variable {c d : Context}

theorem expandJson_congr (h : d.expand = c.expand) (value : Json) :
    d.expandJson value = c.expandJson value := by
  cases value with
  | text s => exact congrFun h s
  | _ => rfl

theorem termType_congr (h : d.expand = c.expand) (type : Option Json) :
    d.termType type = c.termType type := by
  rcases type with _ | value
  · rfl
  · cases value with
    | text s => simp only [termType, h]
    | _ => rfl

/-! ## Entries -/

/-- What an entry of a context object adds to a context. -/
inductive Entry where
  | nothing
  | type (iri : String)
  | term (definition : TermDefinition)

/-- The context with what an entry adds. -/
def add (c : Context) (key : String) : Entry → Context
  | .nothing => c
  | .type iri => { c with types := Assoc.put key iri c.types }
  | .term d => { c with terms := Assoc.put key d c.terms }

/-- The definition of a term by what its object says: nothing without an identifier. -/
def definitionOf (c : Context) (id type container : Option Json) : Except ContextError Entry :=
  match id with
  | none | some .null => .ok .nothing
  | some id => do
    let type ← c.termType type
    let id ← c.expandJson id
    return .term ⟨id, type, container.getD .null⟩

/-- What an entry adds, if it can be taken. -/
def entryOf (c : Context) (key : String) (value : Json) : Except ContextError Entry :=
  if key.startsWith "@" then
    .ok .nothing
  else
    match value with
    | .text iri =>
      if key.contains ':' || isNamespace iri then .ok .nothing
      else (c.expand iri).map .type
    | .object fields =>
      c.definitionOf (Assoc.get? "@id" fields) (Assoc.get? "@type" fields)
        (Assoc.get? "@container" fields)
    | _ => .ok .nothing

theorem definitionOf_some (c : Context) {id : Json} (hnull : id ≠ .null)
    (type container : Option Json) :
    c.definitionOf (some id) type container = (c.termType type).bind fun type =>
      (c.expandJson id).map fun iri => .term ⟨iri, type, container.getD .null⟩ := by
  rw [definitionOf]
  · rcases c.termType type with e | type
    · rfl
    · rcases c.expandJson id with e | iri <;> rfl
  · exact hnull

theorem takeEntry_eq (c : Context) (key : String) (value : Json) :
    c.takeEntry key value = (c.entryOf key value).map (c.add key) := by
  unfold takeEntry entryOf
  split_ifs
  · rfl
  · cases value with
    | text iri =>
      dsimp only
      split_ifs
      · rfl
      · rcases c.expand iri with e | expanded <;> rfl
    | object fields =>
      dsimp only
      rcases Assoc.get? "@id" fields with _ | id
      · rfl
      · cases id with
        | null => rfl
        | _ =>
          rw [c.definitionOf_some (by simp)]
          dsimp only
          rcases c.termType (Assoc.get? "@type" fields) with e | type
          · rfl
          · rcases c.expandJson _ with e | iri <;> rfl
    | _ => rfl

theorem definitionOf_congr (h : d.expand = c.expand) (id type container : Option Json) :
    d.definitionOf id type container = c.definitionOf id type container := by
  rcases id with _ | id
  · rfl
  · by_cases hnull : id = .null
    · rw [hnull]
      rfl
    · rw [definitionOf_some d hnull, definitionOf_some c hnull, termType_congr h,
        expandJson_congr h]

theorem entryOf_congr (h : d.expand = c.expand) (key : String) (value : Json) :
    d.entryOf key value = c.entryOf key value := by
  unfold entryOf
  cases value with
  | text iri => simp only [h]
  | object fields => simp only [definitionOf_congr h]
  | _ => rfl

theorem expand_add (c : Context) (key : String) (entry : Entry) :
    (c.add key entry).expand = c.expand := by
  cases entry <;> exact expand_congr (fun _ => rfl) rfl rfl

/-- What the entries of an object add, under their keys. -/
def additions (c : Context) (fields : List (String × Json)) :
    Except ContextError (List (String × Entry)) :=
  fields.mapM fun e => (c.entryOf e.1 e.2).map (Prod.mk e.1)

/-- The context with all that entries add. -/
def addAll (c : Context) (entries : List (String × Entry)) : Context :=
  entries.foldl (fun c e => c.add e.1 e.2) c

theorem additions_congr (h : d.expand = c.expand) (fields : List (String × Json)) :
    d.additions fields = c.additions fields := by
  simp only [additions, entryOf_congr h]

theorem additions_cons (c : Context) (e : String × Json) (fields : List (String × Json)) :
    c.additions (e :: fields) = (c.entryOf e.1 e.2).bind fun entry =>
      (c.additions fields).map fun entries => (e.1, entry) :: entries := by
  rw [additions, List.mapM_cons, ← additions]
  rcases c.entryOf e.1 e.2 with error | entry
  · rfl
  · rcases c.additions fields with error | entries <;> rfl

/-- The entries of an object do not see what the others add. -/
theorem foldlM_takeEntry (c : Context) (fields : List (String × Json)) :
    fields.foldlM (fun c e => c.takeEntry e.1 e.2) c = (c.additions fields).map c.addAll := by
  induction fields generalizing c with
  | nil => rfl
  | cons e fields ih =>
    rw [List.foldlM_cons, takeEntry_eq, additions_cons]
    rcases c.entryOf e.1 e.2 with error | entry
    · rfl
    · have hrest := ih (c.add e.1 entry)
      rw [additions_congr (c.expand_add e.1 entry)] at hrest
      refine hrest.trans ?_
      rw [Except.bind]
      rcases c.additions fields with error | entries <;> rfl

/-- An object is taken in its scope, and its entries add what each adds by itself. -/
theorem takeObject_eq (c : Context) (fields : List (String × Json)) :
    c.takeObject fields
      = ((c.scope fields).additions fields).map (c.scope fields).addAll :=
  foldlM_takeEntry (c.scope fields) fields

/-! ## What entries add -/

def Entry.type? : Entry → Option String
  | .type iri => some iri
  | _ => none

def Entry.term? : Entry → Option TermDefinition
  | .term d => some d
  | _ => none

section Look

variable (key : String)

theorem get?_types_add (c : Context) (k : String) (entry : Entry) :
    Assoc.get? key (c.add k entry).types
      = (if k = key then entry.type? else none).or (Assoc.get? key c.types) := by
  by_cases h : k = key
  · subst h
    cases entry <;> simp [add, Entry.type?, Assoc.get?_put_self]
  · cases entry <;> simp [add, Assoc.get?_put_of_ne (Ne.symm h), h]

theorem get?_terms_add (c : Context) (k : String) (entry : Entry) :
    Assoc.get? key (c.add k entry).terms
      = (if k = key then entry.term? else none).or (Assoc.get? key c.terms) := by
  by_cases h : k = key
  · subst h
    cases entry <;> simp [add, Entry.term?, Assoc.get?_put_self]
  · cases entry <;> simp [add, Assoc.get?_put_of_ne (Ne.symm h), h]

/-- What a context looks up after entries with distinct keys, where one entry adds what it has
under its own key. -/
theorem get?_addAll {α : Type} {field : Context → List (String × α)} {value : Entry → Option α}
    (hadd : ∀ (c : Context) k entry, Assoc.get? key (field (c.add k entry))
      = (if k = key then value entry else none).or (Assoc.get? key (field c))) :
    ∀ {entries : List (String × Entry)} (c : Context), entries.Pairwise (·.1 ≠ ·.1) →
      Assoc.get? key (field (c.addAll entries))
        = ((Assoc.get? key entries).bind value).or (Assoc.get? key (field c))
  | [], c, _ => rfl
  | (k, entry) :: entries, c, h => by
    rw [addAll, List.foldl_cons, ← addAll, get?_addAll hadd _ h.of_cons, hadd, Assoc.get?]
    split_ifs with he
    · subst he
      rw [get?_eq_none_of_head h]
      rfl
    · rfl

theorem addAll_eq (c : Context) (entries : List (String × Entry)) :
    c.addAll entries
      = { c with types := (c.addAll entries).types, terms := (c.addAll entries).terms } := by
  induction entries generalizing c with
  | nil => rfl
  | cons e entries ih =>
    rw [addAll, List.foldl_cons, ← addAll]
    refine (ih _).trans ?_
    cases e.2 <;> rfl

end Look

end Context

end ShapeForge
