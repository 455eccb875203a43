import ShapeForge.Platform.Standard
import ShapeForge.Proofs.Actions
import ShapeForge.Proofs.Members

/-!
# Values that a builder refuses

A call that is refused changes no value, and no later call can tell that it was made
(`Builder.Follows.run`). But adding to a list makes a place for the predicate before the value is
checked, and the places are in the order of the triples. So a predicate may come ahead of others
that got their places later (`Builder.Follows`), and this shows once it and one of these have
values.
-/

namespace ShapeForge

open Rdf (Term Triple)

namespace Assoc

variable {α : Type} {key : String} {value : α} {front back : List (String × α)}

theorem put_append_of_mem : ∀ {front : List (String × α)}, key ∈ front.map (·.1) →
    put key value (front ++ back) = put key value front ++ back
  | [], h => by simp at h
  | (k, v) :: front, h => by
    by_cases hk : k = key
    · simp [put, hk]
    · have hmem : key ∈ front.map (·.1) := by simpa [Ne.symm hk] using h
      simp [put, hk, put_append_of_mem hmem]

theorem put_append_of_not_mem : ∀ {front : List (String × α)}, key ∉ front.map (·.1) →
    put key value (front ++ back) = front ++ put key value back
  | [], _ => rfl
  | (k, v) :: front, h => by
    rw [List.map_cons, List.mem_cons, not_or] at h
    simp [put, Ne.symm h.1, put_append_of_not_mem h.2]

theorem keys_put_of_mem : ∀ {entries : List (String × α)}, key ∈ entries.map (·.1) →
    (put key value entries).map (·.1) = entries.map (·.1)
  | [], h => by simp at h
  | (k, v) :: entries, h => by
    by_cases hk : k = key
    · simp [put, hk]
    · have hmem : key ∈ entries.map (·.1) := by simpa [Ne.symm hk] using h
      simp [put, hk, keys_put_of_mem hmem]

theorem get?_append_of_not_mem : ∀ {front : List (String × α)}, key ∉ front.map (·.1) →
    get? key (front ++ back) = get? key back
  | [], _ => rfl
  | (k, v) :: front, h => by
    rw [List.map_cons, List.mem_cons, not_or] at h
    simp [get?, Ne.symm h.1, get?_append_of_not_mem h.2]

/-- Another entry can be moved without a change of what a key denotes. -/
theorem get?_append_cons_of_ne {other : String} (h : key ≠ other) :
    ∀ front : List (String × α), get? key (front ++ (other, value) :: back)
      = get? key (front ++ back)
  | [] => by simp [get?, h.symm]
  | (k, v) :: front => by
    by_cases hk : k = key
    · simp [get?, hk]
    · simp [get?, hk, get?_append_cons_of_ne h front]

end Assoc

namespace Builder

/-! ## Calls of setters -/

/-- A call of a setter. -/
inductive Call where
  | literal (keeping : Keeping) (rule : Rule) (value : Value) (datatype lang : Option String)
  | node (keeping : Keeping) (rule : Rule) (value : Value)

namespace Call

def keeping : Call → Keeping
  | .literal keeping .. => keeping
  | .node keeping .. => keeping

def rule : Call → Rule
  | .literal _ rule .. => rule
  | .node _ rule _ => rule

/-- The predicate whose values a call is about. -/
def path (call : Call) : String := call.rule.path

/-- The term that a call makes of its value. -/
def term [Rdf.Datatypes] : Call → Except BuildError Term
  | .literal _ _ value datatype lang =>
    ((value.literal datatype lang).map .literal).mapError .literal
  | .node _ _ value => value.node.mapError .notANode

/-- What a call makes of a builder. -/
def apply [Platform] (b : Builder) : Call → Except BuildError Unit × Builder
  | .literal keeping rule value datatype lang => b.keepLiteral keeping rule value datatype lang
  | .node keeping rule value => b.keepNode keeping rule value

/-- The builder after calls, some of which may have been refused. -/
def run [Platform] (b : Builder) (calls : List Call) : Builder :=
  calls.foldl (fun b call => (call.apply b).2) b

/-- How calls end that are made one after another. -/
def outcomes [Platform] : Builder → List Call → List (Except BuildError Unit)
  | _, [] => []
  | b, call :: calls => (call.apply b).1 :: outcomes (call.apply b).2 calls

theorem apply_of_ok [Platform] {call : Call} {t : Term} (h : call.term = .ok t) (b : Builder) :
    call.apply b = b.keep call.keeping call.rule t := by
  cases call with
  | literal keeping rule value datatype lang =>
    rw [term] at h
    rw [apply, keepLiteral]
    rcases hl : value.literal datatype lang with e | l
    · simp [hl, Except.map, Except.mapError] at h
    · obtain rfl : Term.literal l = t := by simpa [hl, Except.map, Except.mapError] using h
      rfl
  | node keeping rule value =>
    rw [term] at h
    rw [apply, keepNode]
    rcases hv : value.node with e | u
    · simp [hv, Except.mapError] at h
    · obtain rfl : u = t := by simpa [hv, Except.mapError] using h
      rfl

theorem apply_of_error [Platform] {call : Call} {e : BuildError} (h : call.term = .error e)
    (b : Builder) :
    call.apply b = (.error e, b) := by
  cases call with
  | literal keeping rule value datatype lang =>
    rw [term] at h
    rw [apply, keepLiteral]
    rcases hl : value.literal datatype lang with e' | l
    · obtain rfl : BuildError.literal e' = e := by simpa [hl, Except.map, Except.mapError] using h
      rfl
    · simp [hl, Except.map, Except.mapError] at h
  | node keeping rule value =>
    rw [term] at h
    rw [apply, keepNode]
    rcases hv : value.node with e' | u
    · obtain rfl : BuildError.notANode e' = e := by simpa [hv, Except.mapError] using h
      rfl
    · simp [hv, Except.mapError] at h

end Call

/-- The builder with these values of a predicate. -/
def write (b : Builder) (path : String) (terms : List Term) : Builder :=
  { b with values := Assoc.put path terms b.values }

theorem check_congr [Platform] {b b' : Builder} (h : b.node = b'.node) (rule : Rule) (t : Term) :
    b.check rule t = b'.check rule t := by
  rw [check, check, h]

/-- What a call does depends on the node and on the values of its predicate only: it changes
nothing, or it writes other values of the predicate. -/
theorem Call.apply_cases [Platform] (call : Call) (node : Term) :
    (∃ e, ∀ b : Builder, b.node = node → call.apply b = (.error e, b))
      ∨ ∃ (outcome : Except BuildError Unit) (terms : List Term → List Term),
        ∀ b : Builder, b.node = node →
          call.apply b = (outcome, b.write call.path (terms (b.valuesOf call.path))) := by
  rcases hterm : call.term with e | t
  · exact .inl ⟨e, fun b _ => apply_of_error hterm b⟩
  · have houtcome : ∃ outcome, ∀ b : Builder, b.node = node → b.check call.rule t = outcome :=
      ⟨({ className := "", classIri := "", node } : Builder).check call.rule t,
        fun b hb => check_congr hb call.rule t⟩
    obtain ⟨e | ⟨⟩, hcheck⟩ := houtcome <;> rcases hkeeping : call.keeping
    · refine .inl ⟨e, fun b hb => ?_⟩
      simp only [apply_of_ok hterm, keep, hkeeping, hcheck b hb]
    · refine .inr ⟨.error e, id, fun b hb => ?_⟩
      simp only [apply_of_ok hterm, keep, hkeeping, hcheck b hb]
      rfl
    · refine .inr ⟨.ok (), fun _ => [t], fun b hb => ?_⟩
      simp only [apply_of_ok hterm, keep, hkeeping, hcheck b hb]
      rfl
    · refine .inr ⟨.ok (), (· ++ [t]), fun b hb => ?_⟩
      simp only [apply_of_ok hterm, keep, hkeeping, hcheck b hb]
      rfl

/-! ## A place that comes early -/

/-- Values by predicate, and the same values with the place of one predicate right behind the old
ones, whenever it got this place or even if it has none. -/
inductive Ahead (path : String) (old : List String) :
    List (String × List Term) → List (String × List Term) → Prop
  | waiting {before between : List (String × List Term)} :
    before.map (·.1) = old → path ∉ old → path ∉ between.map (·.1) →
      Ahead path old (before ++ between) (before ++ (path, []) :: between)
  | placed {before between after : List (String × List Term)} {terms : List Term} :
    before.map (·.1) = old → path ∉ old → path ∉ between.map (·.1) →
      Ahead path old (before ++ (between ++ (path, terms) :: after))
        (before ++ (path, terms) :: (between ++ after))

/-- The values of the predicates that got a place behind the old ones and before this one. -/
def overtaken (path : String) (old : List String) (values : List (String × List Term)) :
    List (String × List Term) :=
  (values.drop old.length).takeWhile fun e => e.1 ≠ path

namespace Ahead

variable {path : String} {old : List String} {kept found : List (String × List Term)}

theorem get?_getD (h : Ahead path old kept found) (key : String) :
    (Assoc.get? key found).getD [] = (Assoc.get? key kept).getD [] := by
  cases h with
  | @waiting before between hold hpath hbetween =>
    subst hold
    by_cases hkey : key = path
    · subst hkey
      rw [Assoc.get?_append_of_not_mem hpath, Assoc.get?_append_of_not_mem hpath,
        Assoc.get?_eq_none_iff.2 hbetween]
      simp [Assoc.get?]
    · rw [Assoc.get?_append_cons_of_ne hkey]
  | @placed before between after terms hold hpath hbetween =>
    subst hold
    by_cases hkey : key = path
    · subst hkey
      rw [Assoc.get?_append_of_not_mem hpath, Assoc.get?_append_of_not_mem hpath,
        Assoc.get?_append_of_not_mem hbetween]
      simp [Assoc.get?]
    · rw [Assoc.get?_append_cons_of_ne hkey, ← List.append_assoc, ← List.append_assoc,
        Assoc.get?_append_cons_of_ne hkey]

/-- Writing values keeps the early place where it is. -/
theorem put (h : Ahead path old kept found) (key : String) (value : List Term) :
    Ahead path old (Assoc.put key value kept) (Assoc.put key value found) := by
  cases h with
  | @waiting before between hold hpath hbetween =>
    subst hold
    by_cases hkey : key = path
    · -- The predicate gets its place, which is the last one so far.
      subst hkey
      rw [Assoc.put_append_of_not_mem hpath, Assoc.put_append_of_not_mem hpath,
        Assoc.put_of_not_mem hbetween]
      simpa [Assoc.put] using @placed key _ before between [] value rfl hpath hbetween
    by_cases hbefore : key ∈ before.map (·.1)
    · rw [Assoc.put_append_of_mem hbefore, Assoc.put_append_of_mem hbefore]
      exact waiting (Assoc.keys_put_of_mem hbefore) hpath hbetween
    · rw [Assoc.put_append_of_not_mem hbefore, Assoc.put_append_of_not_mem hbefore, Assoc.put,
        if_neg (Ne.symm hkey)]
      refine waiting rfl hpath fun hmem => ?_
      rw [Assoc.mem_keys_put] at hmem
      exact hmem.elim (Ne.symm hkey) hbetween
  | @placed before between after terms hold hpath hbetween =>
    subst hold
    by_cases hkey : key = path
    · subst hkey
      rw [Assoc.put_append_of_not_mem hpath, Assoc.put_append_of_not_mem hpath,
        Assoc.put_append_of_not_mem hbetween]
      simpa [Assoc.put] using @placed key _ before between after value rfl hpath hbetween
    by_cases hbefore : key ∈ before.map (·.1)
    · rw [Assoc.put_append_of_mem hbefore, Assoc.put_append_of_mem hbefore]
      exact placed (Assoc.keys_put_of_mem hbefore) hpath hbetween
    rw [Assoc.put_append_of_not_mem hbefore, Assoc.put_append_of_not_mem hbefore, Assoc.put,
      if_neg (Ne.symm hkey)]
    by_cases hmiddle : key ∈ between.map (·.1)
    · rw [Assoc.put_append_of_mem hmiddle, Assoc.put_append_of_mem hmiddle]
      refine placed rfl hpath fun hmem => ?_
      rw [Assoc.keys_put_of_mem hmiddle] at hmem
      exact hbetween hmem
    · rw [Assoc.put_append_of_not_mem hmiddle, Assoc.put_append_of_not_mem hmiddle, Assoc.put,
        if_neg (Ne.symm hkey)]
      exact placed rfl hpath hbetween

theorem takeWhile_between {between rest : List (String × List Term)}
    (hbetween : path ∉ between.map (·.1)) (hrest : ∀ e ∈ rest.head?, e.1 = path) :
    (between ++ rest).takeWhile (fun e => e.1 ≠ path) = between := by
  have hne : ∀ e ∈ between, decide (e.1 ≠ path) = true := by
    intro e he
    exact decide_eq_true fun heq => hbetween (List.mem_map.2 ⟨e, he, heq⟩)
  rw [List.takeWhile_append_of_pos hne]
  rcases rest with _ | ⟨e, rest⟩
  · simp
  · simp [hrest e rfl]

theorem overtaken_of_keys {before between rest : List (String × List Term)}
    (hold : before.map (·.1) = old) (hbetween : path ∉ between.map (·.1))
    (hrest : ∀ e ∈ rest.head?, e.1 = path) :
    overtaken path old (before ++ (between ++ rest)) = between := by
  rw [overtaken, ← hold, List.length_map, List.drop_left]
  exact takeWhile_between hbetween hrest

/-- What is made of the values is the same but for the order: that of the predicate comes before
that of the overtaken ones, not behind it. -/
theorem flatMap_split (h : Ahead path old kept found) {β : Type} (f : String × List Term → List β)
    (hf : f (path, []) = []) :
    let own := f (path, (Assoc.get? path kept).getD [])
    let between := (overtaken path old kept).flatMap f
    ∃ front rest, kept.flatMap f = front ++ (between ++ (own ++ rest))
      ∧ found.flatMap f = front ++ (own ++ (between ++ rest)) := by
  cases h with
  | @waiting before between hold hpath hbetween =>
    have hnone : Assoc.get? path (before ++ between) = none := by
      rw [Assoc.get?_append_of_not_mem (hold ▸ hpath), Assoc.get?_eq_none_iff.2 hbetween]
    have hovertaken := @overtaken_of_keys path old before between [] hold hbetween (by simp)
    rw [List.append_nil] at hovertaken
    simp only [hnone, hovertaken, Option.getD_none, hf]
    exact ⟨before.flatMap f, [], by simp, by simp [hf]⟩
  | @placed before between after terms hold hpath hbetween =>
    have hsome : Assoc.get? path (before ++ (between ++ (path, terms) :: after)) = some terms := by
      rw [Assoc.get?_append_of_not_mem (hold ▸ hpath), Assoc.get?_append_of_not_mem hbetween]
      simp [Assoc.get?]
    have hovertaken := @overtaken_of_keys path old before between ((path, terms) :: after) hold
      hbetween (by simp)
    simp only [hsome, hovertaken, Option.getD_some]
    exact ⟨before.flatMap f, after.flatMap f, by simp, by simp⟩

end Ahead

def classTriples (b : Builder) : List Triple :=
  if b.classIri.isEmpty then [] else [⟨b.node, .iri Rdf.rdfType, .iri b.classIri⟩]

/-- The triples of the values of one predicate. -/
def entryTriples (node : Term) (e : String × List Term) : List Triple :=
  e.2.map fun t => ⟨node, .iri e.1, t⟩

theorem triples_eq (b : Builder) :
    b.triples = b.classTriples ++ b.values.flatMap (entryTriples b.node) := rfl

/-- Two builders with the same values, in the second of which a predicate has its place right
behind the old ones. -/
def Follows (path : String) (old : List String) (kept found : Builder) : Prop :=
  Ahead path old kept.values found.values ∧ found = { kept with values := found.values }

namespace Follows

variable {path : String} {old : List String} {kept found : Builder}

theorem node (h : Follows path old kept found) : found.node = kept.node := by rw [h.2]

theorem valuesOf (h : Follows path old kept found) (key : String) :
    found.valuesOf key = kept.valuesOf key := h.1.get?_getD key

/-- A call does the same to both builders. -/
theorem apply [Platform] (h : Follows path old kept found) (call : Call) :
    (call.apply found).1 = (call.apply kept).1
      ∧ Follows path old (call.apply kept).2 (call.apply found).2 := by
  rcases call.apply_cases kept.node with ⟨e, hcall⟩ | ⟨outcome, terms, hcall⟩
  · rw [hcall kept rfl, hcall found h.node]
    exact ⟨rfl, h⟩
  · rw [hcall kept rfl, hcall found h.node, h.valuesOf]
    refine ⟨rfl, h.1.put _ _, ?_⟩
    rw [write, h.2]
    rfl

theorem run [Platform] : ∀ (calls : List Call) {kept found : Builder}, Follows path old kept found →
    Call.outcomes found calls = Call.outcomes kept calls
      ∧ Follows path old (Call.run kept calls) (Call.run found calls)
  | [], _, _, h => ⟨rfl, h⟩
  | call :: calls, _, _, h => by
    obtain ⟨hcall, hafter⟩ := h.apply call
    obtain ⟨houtcomes, hrun⟩ := run calls hafter
    exact ⟨by rw [Call.outcomes, Call.outcomes, hcall, houtcomes], hrun⟩

theorem swapped_eq_iff {α : Type} {front own between rest : List α} (h : ∀ a ∈ own, a ∉ between) :
    front ++ (own ++ (between ++ rest)) = front ++ (between ++ (own ++ rest)) ↔
      own = [] ∨ between = [] := by
  rcases own with _ | ⟨a, own⟩
  · simp
  rcases between with _ | ⟨b, between⟩
  · simp
  · have hne : a ≠ b := fun hab => h a List.mem_cons_self (hab ▸ List.mem_cons_self)
    simp [hne]

/-- The triples are the same but for the order, and in the same order if the predicate or all that
it has overtaken have no values. -/
theorem triples (h : Follows path old kept found) : found.triples.Perm kept.triples
    ∧ (found.triples = kept.triples ↔
      kept.valuesOf path = [] ∨ ∀ e ∈ overtaken path old kept.values, e.2 = []) := by
  obtain ⟨front, rest, hkept, hfound⟩ := h.1.flatMap_split (entryTriples kept.node) rfl
  have hclass : found.triples
      = classTriples kept ++ found.values.flatMap (entryTriples kept.node) := by
    rw [triples_eq, h.node, h.2]
    rfl
  rw [hclass, triples_eq kept, hkept, hfound]
  refine ⟨((List.perm_append_comm_assoc _ _ _).append_left _).append_left _, ?_⟩
  rw [List.append_cancel_left_eq, swapped_eq_iff fun t hown hbetween => ?_]
  · rw [entryTriples, List.map_eq_nil_iff, List.flatMap_eq_nil_iff]
    simp only [entryTriples, List.map_eq_nil_iff]
    rfl
  · -- The triples of the predicate are not among those of others.
    obtain ⟨o, -, rfl⟩ := List.mem_map.1 hown
    obtain ⟨e, he, ht⟩ := List.mem_flatMap.1 hbetween
    obtain ⟨o', -, ht⟩ := List.mem_map.1 ht
    have hpath : e.1 = path := by simpa using congrArg Triple.predicate ht
    rw [overtaken] at he
    simpa [hpath] using List.mem_takeWhile_imp he

end Follows

/-! ## What a refused call leaves behind -/

/-- A call that adds a term to a predicate without a place. -/
structure Call.MakesPlace [Rdf.Datatypes] (call : Call) (b : Builder) : Prop where
  keeping : call.keeping = .append
  term : ∃ t, call.term = .ok t
  new : call.path ∉ b.values.map (·.1)

/-- A refused call leaves the builder as it was, or with an early place. -/
theorem Call.refused_cases [Platform] {b : Builder} {call : Call} {e : BuildError}
    (h : (call.apply b).1 = .error e) :
    ¬ call.MakesPlace b ∧ (call.apply b).2 = b
      ∨ call.MakesPlace b ∧ Follows call.path (b.values.map (·.1)) b (call.apply b).2 := by
  rcases hterm : call.term with e' | t
  · refine .inl ⟨fun hplace => ?_, by rw [apply_of_error hterm]⟩
    obtain ⟨t, ht⟩ := hplace.term
    simp [hterm] at ht
  rw [apply_of_ok hterm] at h ⊢
  rcases hcheck : b.check call.rule t with e' | ⟨⟩ <;> rcases hkeeping : call.keeping <;>
    simp only [keep, hkeeping, hcheck, reduceCtorEq] at h ⊢
  · refine .inl ⟨fun hplace => ?_, trivial⟩
    have happend := hplace.keeping
    rw [hkeeping] at happend
    cases happend
  · by_cases hnew : call.path ∈ b.values.map (·.1)
    · -- The place is there already, and its values are written back.
      refine .inl ⟨fun hplace => hplace.new hnew, ?_⟩
      rcases hget : Assoc.get? call.path b.values with _ | terms
      · exact absurd hnew (Assoc.get?_eq_none_iff.1 hget)
      · have hvalues : b.valuesOf call.rule.path = terms := by rw [valuesOf, ← path, hget]; rfl
        rw [hvalues, ← path, Assoc.put_of_get? hget]
    · refine .inr ⟨⟨hkeeping, ⟨t, hterm⟩, hnew⟩, ?_, rfl⟩
      have hvalues : b.valuesOf call.rule.path = [] := by
        rw [valuesOf, ← path, Assoc.get?_eq_none_iff.2 hnew]
        rfl
      rw [hvalues, ← path, Assoc.put_of_not_mem hnew]
      simpa using @Ahead.waiting call.path _ b.values [] rfl hnew (by simp)

/-- A call that adds a node to a predicate without any conditions. -/
def Call.free (path : String) : Call := .node .append { name := "", path } (.text "")

theorem Call.free_apply [Platform] (b : Builder) (path : String) :
    (Call.free path).apply b = (.ok (), b.write path (b.valuesOf path ++ [.iri ""])) := rfl

/-- Of two predicates without a place, the one that got it early has overtaken the other, once both
have values. -/
theorem exists_overtaken [Platform] (b : Builder) {path : String}
    (hpath : path ∉ b.values.map (·.1)) :
    ∃ more, ¬ ((Call.run b more).valuesOf path = []
      ∨ ∀ e ∈ overtaken path (b.values.map (·.1)) (Call.run b more).values, e.2 = []) := by
  obtain ⟨other, hother⟩ := Infinite.exists_notMem_finset (path :: b.values.map (·.1)).toFinset
  rw [List.mem_toFinset, List.mem_cons, not_or] at hother
  have hrun : (Call.run b [.free other, .free path]).values
      = b.values ++ ([(other, [.iri ""])] ++ [(path, [.iri ""])]) := by
    have hnone : Assoc.get? other b.values = none := Assoc.get?_eq_none_iff.2 hother.2
    have hnone' : Assoc.get? path (b.values ++ [(other, [Term.iri ""])]) = none := by
      rw [Assoc.get?_eq_none_iff]
      simpa [Ne.symm hother.1] using hpath
    simp only [Call.run, List.foldl_cons, List.foldl_nil, Call.free_apply, write, valuesOf, hnone,
      Assoc.put_of_not_mem hother.2, Option.getD_none, List.nil_append, hnone']
    rw [Assoc.put_of_not_mem (Assoc.get?_eq_none_iff.1 hnone'), List.append_assoc]
  refine ⟨[.free other, .free path], ?_⟩
  rw [valuesOf, hrun, Ahead.overtaken_of_keys rfl (by simpa using Ne.symm hother.1) (by simp),
    Assoc.get?_append_of_not_mem hpath]
  simp [Assoc.get?, hother.1]

/-- A refused call changes no value and no later outcome, and no triple but for their order. It
changes this order if and only if it makes a place for its predicate, and later the predicate gets
values, and so does another one that got its place in between. So no later calls show that it was
made exactly if it makes no place, and then the builder is as it was. -/
theorem refused_call_unseen_iff [Platform] {b : Builder} {call : Call} {e : BuildError}
    (h : (call.apply b).1 = .error e) :
    (∀ more, let kept := Call.run b more
      let found := Call.run (call.apply b).2 more
      Call.outcomes (call.apply b).2 more = Call.outcomes b more
        ∧ (∀ path, found.valuesOf path = kept.valuesOf path)
        ∧ found.triples.Perm kept.triples
        ∧ (found.triples ≠ kept.triples ↔ call.MakesPlace b ∧ kept.valuesOf call.path ≠ []
          ∧ ∃ e ∈ overtaken call.path (b.values.map (·.1)) kept.values, e.2 ≠ []))
      ∧ ((∀ more, (Call.run (call.apply b).2 more).triples = (Call.run b more).triples) ↔
        ¬ call.MakesPlace b)
      ∧ (¬ call.MakesPlace b → (call.apply b).2 = b) := by
  rcases Call.refused_cases h with ⟨hplace, hsame⟩ | ⟨hplace, hfollows⟩
  · rw [hsame]
    exact ⟨fun more => ⟨rfl, fun _ => rfl, .refl _, by simp [hplace]⟩, by simp [hplace],
      fun _ => rfl⟩
  · refine ⟨fun more => ?_, ?_, fun hno => absurd hplace hno⟩
    · obtain ⟨houtcomes, hrun⟩ := hfollows.run more
      obtain ⟨hperm, htriples⟩ := hrun.triples
      refine ⟨houtcomes, hrun.valuesOf, hperm, ?_⟩
      rw [ne_eq, htriples, not_or, and_iff_right hplace]
      simp only [not_forall, exists_prop, ne_eq]
    · refine iff_of_false (fun hall => ?_) (fun hno => hno hplace)
      obtain ⟨more, hmore⟩ := b.exists_overtaken hplace.new
      exact hmore ((hfollows.run more).2.triples.2.1 (hall more))

/-- A call that adds a text of at most one character. -/
def Call.short (path text : String) : Call :=
  .literal .append { name := path, path, constraints := { maxLength := some 1 } } (.text text) none
    none

section

attribute [local instance] Platform.standard

/-- A text that is refused brings its predicate ahead of one that got a text before it. -/
theorem refused_text_seen :
    let b : Builder := { className := "ABuilder", classIri := "", node := .iri "n" }
    let later : List Call := [.short "q" "a", .short "p" "a"]
    let kept := Call.run b later
    let found := Call.run ((Call.short "p" "long").apply b).2 later
    (∃ e, ((Call.short "p" "long").apply b).1 = .error e)
      ∧ kept.triples.map Triple.predicate = [.iri "q", .iri "p"]
      ∧ found.triples.map Triple.predicate = [.iri "p", .iri "q"]
      ∧ found.triples.Perm kept.triples
      ∧ (Call.short "p" "long").MakesPlace b := by
  intro b later kept found
  have hrefused : ((Call.short "p" "long").apply b).1.isOk = false := by decide +kernel
  obtain ⟨e, he⟩ : ∃ e, ((Call.short "p" "long").apply b).1 = .error e := by
    rcases h : ((Call.short "p" "long").apply b).1 with e | u
    · exact ⟨e, rfl⟩
    · simp [h, Except.isOk, Except.toBool] at hrefused
  have horder : kept.triples.map Triple.predicate = [.iri "q", .iri "p"]
      ∧ found.triples.map Triple.predicate = [.iri "p", .iri "q"] := by decide +kernel
  obtain ⟨-, -, hperm, hseen⟩ := (refused_call_unseen_iff he).1 later
  have hne : found.triples ≠ kept.triples := by decide +kernel
  exact ⟨⟨e, he⟩, horder.1, horder.2, hperm, (hseen.1 hne).1⟩

end

end Builder

end ShapeForge
