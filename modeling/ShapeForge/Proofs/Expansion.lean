import ShapeForge.Platform.Standard
import ShapeForge.Proofs.ContextEntries

/-!
# Expansion of terms

A known prefix before the first colon of a term is replaced, whatever comes behind the colon
(`Context.Compact`, `Context.expand_of_compact`). So an absolute IRI stays as it is exactly if its
scheme is no prefix of the context (`Context.expand_eq_self_iff`).

If every namespace, vocabulary and base that a document declares has a scheme with an authority,
all that its context stores is absolute (`Context.settled_of_ofJson`).
-/

namespace ShapeForge

/-! ## Parts of texts -/

theorem containsText_iff {part : List Char} :
    ∀ {text : List Char}, containsText part text = true ↔ part <:+: text
  | [] => by rw [containsText, List.isEmpty_iff, List.infix_nil]
  | c :: rest => by
    rw [containsText, Bool.or_eq_true, List.isPrefixOf_iff_prefix, containsText_iff,
      List.infix_cons_iff]

/-- Whether a text has a scheme with an authority in it. -/
def HasAuthority (iri : String) : Prop := "://".toList <:+: iri.toList

instance (iri : String) : Decidable (HasAuthority iri) :=
  inferInstanceAs (Decidable ("://".toList <:+: iri.toList))

theorem HasAuthority.append {iri : String} (h : HasAuthority iri) (rest : String) :
    HasAuthority (iri ++ rest) := by
  rw [HasAuthority, String.toList_append]
  exact h.trans (List.infix_append' [] _ _)

theorem isAbsolute_iff {iri : String} :
    isAbsolute iri = true ↔ HasAuthority iri ∨ "urn:".toList <+: iri.toList := by
  rw [isAbsolute, Bool.or_eq_true, containsText_iff, HasAuthority]
  simp

theorem not_hasAuthority_scheme {name : String} (h : ':' ∉ name.toList) :
    ¬ HasAuthority (name ++ ":") := by
  rintro ⟨before, after, heq⟩
  have heq : before ++ ':' :: ('/' :: '/' :: after) = name.toList ++ [':'] := by
    simpa using heq
  -- The mark goes on behind its colon, so this colon is not the last one and stands in the name.
  rcases List.append_eq_append_iff.1 heq with ⟨u, hname, htail⟩ | ⟨u, -, htail⟩
  · rcases u with _ | ⟨a, u⟩
    · simp at htail
    · simp only [List.cons_append, List.cons.injEq] at htail
      refine h ?_
      rw [hname, ← htail.1]
      simp
  · rcases u with _ | ⟨a, u⟩ <;> simp at htail

theorem splitColon_append {name : String} (h : ':' ∉ name.toList) (rest : String) :
    splitColon (name ++ ":" ++ rest) = some (name, rest) := by
  have hname : ∀ c ∈ name.toList, decide (c ≠ ':') = true := fun c hc => by
    simpa using fun hcolon : c = ':' => h (hcolon ▸ hc)
  have hspan : (name ++ ":" ++ rest).toList.span (· ≠ ':') = (name.toList, ':' :: rest.toList) := by
    have htext : (name ++ ":" ++ rest).toList = name.toList ++ ':' :: rest.toList := by simp
    rw [htext, List.span_eq_takeWhile_dropWhile, List.takeWhile_append_of_pos hname,
      List.dropWhile_append_of_pos hname]
    simp
  rw [splitColon, hspan]
  simp

theorem splitColon_of_not_mem {term : String} (h : ':' ∉ term.toList) : splitColon term = none := by
  have hspan : term.toList.span (· ≠ ':') = (term.toList, []) := by
    rw [List.span_eq_takeWhile_dropWhile, List.takeWhile_eq_self_iff.2, List.dropWhile_eq_nil_iff.2]
    all_goals
      intro c hc
      simpa using fun hcolon : c = ':' => h (hcolon ▸ hc)
  rw [splitColon, hspan]

theorem splitColon_eq_some {term name rest : String} (h : splitColon term = some (name, rest)) :
    term = name ++ ":" ++ rest ∧ ':' ∉ name.toList := by
  by_cases hcolon : ':' ∈ term.toList
  · obtain ⟨before, after, hsplit, hbefore⟩ := List.eq_append_cons_of_mem hcolon
    have hterm : term = String.ofList before ++ ":" ++ String.ofList after := by
      rw [← String.toList_inj, hsplit]
      simp
    have hname : ':' ∉ (String.ofList before).toList := by rwa [String.toList_ofList]
    rw [hterm, splitColon_append hname] at h
    obtain ⟨rfl, rfl⟩ := Prod.mk.inj (Option.some.inj h)
    exact ⟨hterm, hname⟩
  · rw [splitColon_of_not_mem hcolon] at h
    cases h

/-! ## Computations that can fail -/

/-- What holds at the start and is kept by every step holds at the end. -/
theorem foldlM_induct {ε α β : Type} {P : β → Prop} {f : β → α → Except ε β} :
    ∀ {as : List α} {b b' : β}, (∀ b b', ∀ a ∈ as, P b → f b a = .ok b' → P b') → P b →
      as.foldlM f b = .ok b' → P b'
  | [], b, b', _, hb, h => Except.ok.inj h ▸ hb
  | a :: as, b, b', hstep, hb, h => by
    rw [List.foldlM_cons] at h
    rcases ha : f b a with e | next
    · rw [ha] at h
      cases h
    · rw [ha] at h
      have hnext : P next := hstep b next a List.mem_cons_self hb ha
      exact foldlM_induct (fun b b' a ha => hstep b b' a (List.mem_cons_of_mem _ ha)) hnext h

/-- The IRIs of a term definition: the mark of references is none. -/
def TermDefinition.iris (d : TermDefinition) : List String :=
  d.id :: (d.type.filter (· ≠ referenceMark)).toList

namespace Context

/-! ## Compact terms -/

/-- A prefix of the context, with its namespace, stands before the first colon of a term. -/
structure Compact (c : Context) (term name rest expansion : String) : Prop where
  parts : term = name ++ ":" ++ rest
  first : ':' ∉ name.toList
  nonempty : name ≠ ""
  known : Assoc.get? name c.prefixes = some expansion

variable {c : Context} {term iri name rest expansion : String}

theorem expand_of_compact (h : c.Compact term name rest expansion) :
    c.expand term = .ok (expansion ++ rest) := by
  have hname : name.isEmpty = false := by simpa using h.nonempty
  rw [expand, h.parts, splitColon_append h.first]
  simp [hname, h.known]

theorem expand_of_not_compact
    (h : ∀ name rest expansion, ¬ c.Compact term name rest expansion) :
    c.expand term = c.expandPlain term
      ∨ ∃ name, c.expand term
        = if isAbsolute term then .ok term else .error (.unknownPrefix name term) := by
  unfold expand
  rcases hsplit : splitColon term with _ | ⟨name, rest⟩
  · exact .inl rfl
  · obtain ⟨hparts, hfirst⟩ := splitColon_eq_some hsplit
    by_cases hempty : name.isEmpty = true
    · exact .inl (if_pos hempty)
    · have hunknown : Assoc.get? name c.prefixes = none := by
        refine Option.eq_none_iff_forall_not_mem.2 fun expansion hknown => ?_
        exact h name rest expansion ⟨hparts, hfirst, by simpa using hempty, hknown⟩
      refine .inr ⟨name, (if_neg hempty).trans ?_⟩
      rw [hunknown]

theorem expand_of_absolute (habsolute : isAbsolute term = true)
    (h : ∀ name rest expansion, ¬ c.Compact term name rest expansion) :
    c.expand term = .ok term := by
  rcases expand_of_not_compact h with hplain | ⟨name, hplain⟩
  · exact hplain.trans (if_pos habsolute)
  · exact hplain.trans (if_pos habsolute)

/-- An absolute IRI stays as it is exactly if no prefix changes it. -/
theorem expand_eq_self_iff (habsolute : isAbsolute term = true) : c.expand term = .ok term ↔
    ∀ name rest expansion, c.Compact term name rest expansion → expansion = name ++ ":" := by
  constructor
  · intro hself name rest expansion h
    rw [expand_of_compact h, h.parts] at hself
    have heq := congrArg String.toList (Except.ok.inj hself)
    rw [String.toList_append, String.toList_append, List.append_left_inj] at heq
    exact String.toList_inj.1 heq
  · intro h
    by_cases hcompact : ∃ name rest expansion, c.Compact term name rest expansion
    · obtain ⟨name, rest, expansion, hc⟩ := hcompact
      rw [expand_of_compact hc, h name rest expansion hc, ← hc.parts]
    · push Not at hcompact
      exact expand_of_absolute habsolute hcompact

/-- Where an expansion comes from: a prefix, the term itself, or the vocabulary or the base. -/
theorem expand_ok (h : c.expand term = .ok iri) :
    (∃ name rest expansion, c.Compact term name rest expansion ∧ iri = expansion ++ rest)
      ∨ (isAbsolute term = true ∧ iri = term)
      ∨ ∃ root, (c.vocab = some root ∨ c.base = some root) ∧ iri = root ++ term := by
  by_cases hcompact : ∃ name rest expansion, c.Compact term name rest expansion
  · obtain ⟨name, rest, expansion, hc⟩ := hcompact
    rw [expand_of_compact hc] at h
    exact .inl ⟨name, rest, expansion, hc, (Except.ok.inj h).symm⟩
  · push Not at hcompact
    right
    rcases expand_of_not_compact hcompact with hplain | ⟨name, hplain⟩
    · rw [hplain, expandPlain] at h
      split_ifs at h with habsolute
      · exact .inl ⟨habsolute, (Except.ok.inj h).symm⟩
      · right
        rcases hvocab : c.vocab with _ | vocab <;> rcases hbase : c.base with _ | base <;>
          rw [hvocab, hbase] at h
        · cases h
        · exact ⟨base, .inr rfl, (Except.ok.inj h).symm⟩
        · exact ⟨vocab, .inl rfl, (Except.ok.inj h).symm⟩
        · exact ⟨vocab, .inl rfl, (Except.ok.inj h).symm⟩
    · rw [hplain] at h
      split_ifs at h with habsolute
      exact .inl ⟨habsolute, (Except.ok.inj h).symm⟩

/-! ## Contexts with absolute namespaces -/

/-- Every namespace, the vocabulary and the base have a scheme with an authority. -/
structure Rooted (c : Context) : Prop where
  prefixes : ∀ e ∈ c.prefixes, HasAuthority e.2
  vocab : ∀ root ∈ c.vocab, HasAuthority root
  base : ∀ root ∈ c.base, HasAuthority root

theorem Rooted.isAbsolute_expand (hc : c.Rooted) (h : c.expand term = .ok iri) :
    isAbsolute iri = true := by
  rcases expand_ok h with ⟨name, rest, expansion, hcompact, rfl⟩ | ⟨habsolute, rfl⟩
    | ⟨root, hroot, rfl⟩
  · have hmem := Assoc.mem_of_get? hcompact.known
    exact isAbsolute_iff.2 (.inl ((hc.prefixes _ hmem).append rest))
  · exact habsolute
  · have hauthority : HasAuthority root := hroot.elim (hc.vocab root) (hc.base root)
    exact isAbsolute_iff.2 (.inl (hauthority.append term))

/-- Expanded once more, an absolute IRI stays exactly if it is not compact: no namespace is a name
with a colon. -/
theorem Rooted.expand_eq_self_iff (hc : c.Rooted) (habsolute : isAbsolute iri = true) :
    c.expand iri = .ok iri ↔ ∀ name rest expansion, ¬ c.Compact iri name rest expansion := by
  rw [Context.expand_eq_self_iff habsolute]
  refine forall₃_congr fun name rest expansion => ⟨fun h hcompact => ?_, fun h hcompact =>
    absurd hcompact h⟩
  have hauthority := hc.prefixes _ (Assoc.mem_of_get? hcompact.known)
  rw [h hcompact] at hauthority
  exact not_hasAuthority_scheme hcompact.first hauthority

/-! ## What a context stores -/

/-- The IRIs of types and term definitions. -/
def stored (c : Context) : List String :=
  c.types.map (·.2) ++ c.terms.flatMap (·.2.iris)

def Entry.iris : Entry → List String
  | .nothing => []
  | .type iri => [iri]
  | .term d => d.iris

theorem mem_stored_add {key : String} {entry : Entry} (h : iri ∈ (c.add key entry).stored) :
    iri ∈ c.stored ∨ iri ∈ entry.iris := by
  cases entry with
  | nothing => exact .inl h
  | type new =>
    rcases List.mem_append.1 h with h | h
    · obtain ⟨e, he, rfl⟩ := List.mem_map.1 h
      rcases Assoc.mem_put he with rfl | he
      · exact .inr (List.mem_singleton.2 rfl)
      · exact .inl (List.mem_append_left _ (List.mem_map.2 ⟨e, he, rfl⟩))
    · exact .inl (List.mem_append_right _ h)
  | term d =>
    rcases List.mem_append.1 h with h | h
    · exact .inl (List.mem_append_left _ h)
    · obtain ⟨e, he, hiri⟩ := List.mem_flatMap.1 h
      rcases Assoc.mem_put he with rfl | he
      · exact .inr hiri
      · exact .inl (List.mem_append_right _ (List.mem_flatMap.2 ⟨e, he, hiri⟩))

theorem Rooted.isAbsolute_expandJson (hc : c.Rooted) {value : Json}
    (h : c.expandJson value = .ok iri) : isAbsolute iri = true := by
  cases value with
  | text s => exact hc.isAbsolute_expand h
  | _ => cases h

theorem Rooted.isAbsolute_termType (hc : c.Rooted) {value : Option Json} {type : Option String}
    (h : c.termType value = .ok type) (hiri : iri ∈ type.filter (· ≠ referenceMark)) :
    isAbsolute iri = true := by
  obtain ⟨rfl, hmark⟩ := Option.filter_eq_some_iff.1 hiri
  rcases value with _ | value
  · cases h
  · cases value with
    | text s =>
      simp only [termType] at h
      split_ifs at h with hs
      · cases h
        simp [hs] at hmark
      · obtain ⟨a, ha, heq⟩ := map_ok_iff.1 h
        cases heq
        exact hc.isAbsolute_expand ha
    | _ => cases h

theorem definitionOf_ok {id type container : Option Json} {entry : Entry}
    (h : c.definitionOf id type container = .ok entry) :
    entry = .nothing ∨ ∃ value given d, c.expandJson value = .ok d.id
      ∧ c.termType given = .ok d.type ∧ entry = .term d := by
  rcases id with _ | id
  · exact .inl (Except.ok.inj h).symm
  · by_cases hnull : id = .null
    · rw [hnull] at h
      exact .inl (Except.ok.inj h).symm
    · rw [definitionOf_some c hnull] at h
      rcases htype : c.termType type with e | read
      · rw [htype] at h
        cases h
      · rw [htype] at h
        obtain ⟨iri, hid, rfl⟩ := map_ok_iff.1 h
        exact .inr ⟨id, type, _, hid, htype, rfl⟩

theorem Rooted.isAbsolute_entryOf (hc : c.Rooted) {key : String} {value : Json} {entry : Entry}
    (h : c.entryOf key value = .ok entry) (hiri : iri ∈ entry.iris) : isAbsolute iri = true := by
  have hnothing : Except.ok .nothing = (.ok entry : Except ContextError Entry) →
      isAbsolute iri = true := by
    intro h
    cases h
    cases hiri
  unfold entryOf at h
  split_ifs at h with hkey
  · exact hnothing h
  · cases value with
    | text s =>
      dsimp only at h
      split_ifs at h
      · exact hnothing h
      · obtain ⟨a, ha, rfl⟩ := map_ok_iff.1 h
        obtain rfl := List.mem_singleton.1 hiri
        exact hc.isAbsolute_expand ha
    | object fields =>
      rcases definitionOf_ok h with rfl | ⟨id, type, d, hid, htype, rfl⟩
      · cases hiri
      · rcases List.mem_cons.1 hiri with rfl | hiri
        · exact hc.isAbsolute_expandJson hid
        · exact hc.isAbsolute_termType htype (Option.mem_toList.1 hiri)
    | _ => exact hnothing h

/-! ## Reading -/

/-- A context with absolute namespaces that stores absolute IRIs. -/
structure Settled (c : Context) : Prop extends c.Rooted where
  stored : ∀ iri ∈ c.stored, isAbsolute iri = true

theorem Settled.takeEntry {c' : Context} (hc : c.Settled) {key : String} {value : Json}
    (h : c.takeEntry key value = .ok c') : c'.Settled := by
  rw [takeEntry_eq] at h
  obtain ⟨entry, hentry, rfl⟩ := map_ok_iff.1 h
  refine ⟨?_, fun iri hiri => ?_⟩
  · cases entry <;> exact ⟨hc.prefixes, hc.vocab, hc.base⟩
  · rcases mem_stored_add hiri with hiri | hiri
    · exact hc.stored iri hiri
    · exact hc.isAbsolute_entryOf hentry hiri

/-- The namespaces, the vocabulary and the base that a context object declares. -/
def declared (fields : List (String × Json)) : List String :=
  fields.filterMap fun e =>
    if e.1 = "@vocab" ∨ e.1 = "@base" then e.2.text? else prefixOf? e.1 e.2

theorem mem_prefixes_addPrefixes {fields : List (String × Json)} {e : String × String}
    (h : e ∈ (c.addPrefixes fields).prefixes) :
    e ∈ c.prefixes ∨ ∃ value, (e.1, value) ∈ fields ∧ prefixOf? e.1 value = some e.2 := by
  induction fields generalizing c with
  | nil => exact .inl h
  | cons f fields ih =>
    rw [addPrefixes_cons] at h
    rcases ih h with h | ⟨value, hvalue, hprefix⟩
    · rcases hf : prefixOf? f.1 f.2 with _ | iri
      · rw [hf] at h
        exact .inl h
      · rw [hf] at h
        rcases Assoc.mem_put h with rfl | h
        · exact .inr ⟨f.2, List.mem_cons_self, hf⟩
        · exact .inl h
    · exact .inr ⟨value, List.mem_cons_of_mem _ hvalue, hprefix⟩

theorem mem_declared_of_prefixOf? {fields : List (String × Json)} {key : String} {value : Json}
    (hmem : (key, value) ∈ fields) (h : prefixOf? key value = some iri) :
    iri ∈ declared fields := by
  have hkey : key.startsWith "@" = false := by
    have hnot := (Option.filter_eq_some_iff.1 h).2
    simp only [Bool.not_eq_true', Bool.or_eq_false_iff] at hnot
    exact hnot.1.1
  have hneither : ¬ (key = "@vocab" ∨ key = "@base") := by
    rintro (rfl | rfl)
    · exact absurd hkey (by simp)
    · exact absurd hkey (by simp)
  exact List.mem_filterMap.2 ⟨_, hmem, (if_neg hneither).trans h⟩

theorem mem_declared_of_get? {fields : List (String × Json)} {key : String}
    (hkey : key = "@vocab" ∨ key = "@base")
    (h : (Assoc.get? key fields).bind Json.text? = some iri) : iri ∈ declared fields := by
  obtain ⟨value, hvalue, htext⟩ := Option.bind_eq_some_iff.1 h
  exact List.mem_filterMap.2 ⟨_, Assoc.mem_of_get? hvalue, (if_pos hkey).trans htext⟩

theorem Settled.scope (hc : c.Settled) {fields : List (String × Json)}
    (h : ∀ iri ∈ declared fields, HasAuthority iri) : (c.scope fields).Settled := by
  refine ⟨⟨fun e he => ?_, fun root hroot => ?_, fun root hroot => ?_⟩, fun iri hiri => ?_⟩
  · rw [Context.scope, takeDefaults_eq] at he
    rcases mem_prefixes_addPrefixes he with he | ⟨value, hvalue, hprefix⟩
    · exact hc.prefixes e he
    · exact h _ (mem_declared_of_prefixOf? hvalue hprefix)
  · rw [scope_vocab, Option.mem_def, Option.or_eq_some_iff] at hroot
    rcases hroot with hroot | ⟨-, hroot⟩
    · exact h root (mem_declared_of_get? (.inl rfl) hroot)
    · exact hc.vocab root hroot
  · rw [scope_base, Option.mem_def, Option.or_eq_some_iff] at hroot
    rcases hroot with hroot | ⟨-, hroot⟩
    · exact h root (mem_declared_of_get? (.inr rfl) hroot)
    · exact hc.base root hroot
  · rw [Context.stored, scope_types, scope_terms] at hiri
    exact hc.stored iri hiri

theorem Settled.takeObject {c' : Context} (hc : c.Settled) {fields : List (String × Json)}
    (hfields : ∀ iri ∈ declared fields, HasAuthority iri)
    (h : c.takeObject fields = .ok c') : c'.Settled :=
  foldlM_induct (fun _ _ _ _ hc h => Settled.takeEntry hc h) (hc.scope hfields) h

/-- The context objects of a decoded document. -/
def objectsIn : Json → List (List (String × Json))
  | .object fields => (objectsOf (Assoc.get? "@context" fields)).toOption.getD []
  | _ => []

/-- The context objects of a document that is given as a text or decoded. -/
def objects [Platform] : Json → List (List (String × Json))
  | .text s => ((Json.read Platform.jsonDepth s).toOption.map objectsIn).getD []
  | document => objectsIn document

theorem ofDocument_ok {document : Json} (h : ofDocument document = .ok c) :
    (objectsIn document).foldlM Context.takeObject {} = .ok c := by
  cases document with
  | object fields =>
    rw [ofDocument] at h
    rw [objectsIn]
    generalize objectsOf (Assoc.get? "@context" fields) = found at h ⊢
    rcases found with e | _ | ⟨first, rest⟩
    · cases h
    · cases h
    · exact h
  | _ => cases h

theorem ofJson_ok [Platform] {input : Json} (h : ofJson input = .ok c) :
    (objects input).foldlM Context.takeObject {} = .ok c := by
  cases input with
  | text s =>
    rw [ofJson, ofText, decode] at h
    rw [objects]
    generalize Json.read Platform.jsonDepth s = found at h ⊢
    rcases found with fault | document
    · cases h
    · exact ofDocument_ok h
  | object fields => exact @ofDocument_ok c (.object fields) h
  | _ => cases h

theorem settled_of_ofJson [Platform] {input : Json} (h : ofJson input = .ok c)
    (hdeclared : ∀ iri ∈ (objects input).flatMap declared, HasAuthority iri) : c.Settled := by
  have hempty : Settled {} := ⟨⟨nofun, nofun, nofun⟩, nofun⟩
  refine foldlM_induct (fun b b' fields hfields hb hstep => hb.takeObject ?_ hstep) hempty
    (ofJson_ok h)
  exact fun iri hiri => hdeclared iri (List.mem_flatMap.2 ⟨fields, hfields, hiri⟩)

/-- A term with a scheme and an authority stays as it is exactly if no prefix before its first colon
changes it. Where all that a document declares is of this kind, every expansion and every stored IRI
is absolute, and it is given back exactly if its scheme is no prefix. -/
theorem absolute_passes_iff [Platform] (c : Context) :
    (∀ term, HasAuthority term →
      (c.expand term = .ok term ↔
        ∀ name rest expansion, c.Compact term name rest expansion → expansion = name ++ ":")
      ∧ ∀ name rest expansion, c.Compact term name rest expansion →
        c.expand term = .ok (expansion ++ rest))
    ∧ ∀ input, ofJson input = .ok c →
      (∀ iri ∈ (objects input).flatMap declared, HasAuthority iri) →
      ∀ iri, (iri ∈ c.stored ∨ ∃ term, c.expand term = .ok iri) →
        (HasAuthority iri ∨ "urn:".toList <+: iri.toList)
        ∧ (c.expand iri = .ok iri ↔
          ∀ name rest expansion, ¬ c.Compact iri name rest expansion) := by
  refine ⟨fun term h => ⟨expand_eq_self_iff (isAbsolute_iff.2 (.inl h)), fun _ _ _ =>
    expand_of_compact⟩, fun input hread hdeclared iri hiri => ?_⟩
  have hc : c.Settled := settled_of_ofJson hread hdeclared
  have habsolute : isAbsolute iri = true := by
    rcases hiri with hiri | ⟨term, hterm⟩
    · exact hc.stored iri hiri
    · exact hc.isAbsolute_expand hterm
  exact ⟨isAbsolute_iff.1 habsolute, hc.toRooted.expand_eq_self_iff habsolute⟩

/-- A context in which a scheme is a prefix. -/
def schemeContext : Json := .object [("@context", .object [
  ("http", .text "http://o/"), ("T", .text "http://e/T")])]

/-- A context in which no scheme is one. -/
def plainContext : Json := .object [("@context", .object [
  ("e", .text "http://e/"), ("T", .text "e:T"), ("U", .text "urn:u")])]

section

attribute [local instance] Platform.standard

theorem schemeContext_rewrites :
    (∃ c, ofJson schemeContext = .ok c
      ∧ (∀ iri ∈ (objects schemeContext).flatMap declared, HasAuthority iri)
      ∧ c.expand "http://e/T" = .ok "http://o///e/T"
      ∧ c.stored = ["http://o///e/T"] ∧ c.expand "http://o///e/T" ≠ .ok "http://o///e/T")
    ∧ ∃ c, ofJson plainContext = .ok c
      ∧ (∀ iri ∈ (objects plainContext).flatMap declared, HasAuthority iri)
      ∧ c.stored = ["http://e/T", "urn:u"] ∧ ∀ iri ∈ c.stored, c.expand iri = .ok iri := by
  constructor
  · have hfound : ((ofJson schemeContext).map fun c => (c.prefixes, c.stored))
      = .ok ([("http", "http://o/")], ["http://o///e/T"]) := by cbv
    obtain ⟨c, hc, hfields⟩ := map_ok_iff.1 hfound
    obtain ⟨hprefixes, hstored⟩ := Prod.mk.inj hfields
    have hdeclared : ∀ iri ∈ (objects schemeContext).flatMap declared, HasAuthority iri := by
      have heq : (objects schemeContext).flatMap declared = ["http://o/"] := by cbv
      rw [heq]
      decide
    have hcompact {term rest : String} (h : term = "http" ++ ":" ++ rest) :
        c.Compact term "http" rest "http://o/" :=
      ⟨h, by decide, by decide, by rw [hprefixes]; rfl⟩
    obtain ⟨hpass, hread⟩ := absolute_passes_iff c
    have hexpand := (hpass "http://e/T" (by decide)).2 "http" "//e/T" _ (hcompact (by decide))
    have hmem : "http://o///e/T" ∈ c.stored := by simp [hstored]
    have hagain := (hread _ hc hdeclared _ (.inl hmem)).2
    exact ⟨c, hc, hdeclared, hexpand.trans (by decide), hstored,
      fun h => hagain.1 h "http" "//o///e/T" _ (hcompact (by decide))⟩
  · have hfound : ((ofJson plainContext).map fun c => (c.prefixes, c.stored))
      = .ok ([("e", "http://e/")], ["http://e/T", "urn:u"]) := by cbv
    obtain ⟨c, hc, hfields⟩ := map_ok_iff.1 hfound
    obtain ⟨hprefixes, hstored⟩ := Prod.mk.inj hfields
    have hdeclared : ∀ iri ∈ (objects plainContext).flatMap declared, HasAuthority iri := by
      have heq : (objects plainContext).flatMap declared = ["http://e/"] := by cbv
      rw [heq]
      decide
    refine ⟨c, hc, hdeclared, hstored, fun iri hiri => ?_⟩
    have hagain := ((absolute_passes_iff c).2 _ hc hdeclared iri (.inl hiri)).2
    refine hagain.2 fun name rest expansion h => ?_
    have hname := Assoc.mem_of_get? h.known
    rw [hprefixes, List.mem_singleton, Prod.mk.injEq] at hname
    have hparts := congrArg String.toList h.parts
    rw [hname.1] at hparts
    rw [hstored, List.mem_cons, List.mem_singleton] at hiri
    rcases hiri with rfl | rfl <;> simp at hparts

end

end Context

end ShapeForge
