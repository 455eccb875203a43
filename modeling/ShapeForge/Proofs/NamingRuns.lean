import ShapeForge.Proofs.ClaimedNames
import ShapeForge.Proofs.ClassNames
import ShapeForge.Proofs.NormalNames

/-!
# Naming ends

The search for the suffix of a class name has no bound of its own, and what it tests depends on the
names of wrappers, builders and modules that were given before. Here classes are named with such
searches (`Model.NamingState.Names`, `Model.Runs`).

Suffixed names derive different names (`Model.SuffixesApart`), so the names that are taken block
finitely many suffixes (`Naming.Allocator.finite_blocked`) and the search ends. A name that was
found has its module free, so the claim of the module ends at once.
-/

namespace ShapeForge

namespace Naming

theorem Search.unique {ok : String → Bool} {name : String} {m n k : ℕ} (hn : Search ok name m n)
    (hk : Search ok name m k) : n = k := by
  obtain ⟨hmn, hokn, hleastn⟩ := hn.least
  obtain ⟨hmk, hokk, hleastk⟩ := hk.least
  rcases Nat.lt_trichotomy n k with h | h | h
  · simp [hleastk n hmn h] at hokn
  · exact h
  · simp [hleastn k hmk h] at hokk

namespace Allocator

/-- A claim with a search that goes on for as long as no suffix can be claimed. -/
inductive Claims (a : Allocator) (name origin : String) (condition : Condition) :
    String × Allocator × List Notice → Prop
  | plain (h : a.admits condition name = true) :
    Claims a name origin condition (name, a.reserve name, [])
  | suffixed {n : ℕ} (h : a.admits condition name = false)
    (hsearch : Search (a.admits condition) name 2 n) :
    Claims a name origin condition (suffixed name n, a.reserve (suffixed name n),
      [.renamed name a.scope origin (suffixed name n)])

@[simp]
theorem scope_reserve (a : Allocator) (name : String) : (a.reserve name).scope = a.scope := by
  unfold reserve
  split_ifs <;> rfl

/-- A claim gives at most the notice that the name was changed in its scope. -/
theorem notices_claim {a : Allocator} {name origin : String} {condition : Condition}
    {notice : Notice} (h : notice ∈ (a.claim name origin condition).2.2) :
    notice = .renamed name a.scope origin (a.choose name condition) := by
  unfold claim at h
  dsimp only at h
  split_ifs at h
  · cases h
  · exact List.mem_singleton.1 h

/-- A claim ends, with what a bounded search gives. -/
theorem claims_iff {a : Allocator} {name origin : String} {condition : Condition}
    {given : String × Allocator × List Notice} :
    a.Claims name origin condition given ↔ given = a.claim name origin condition := by
  by_cases hplain : a.admits condition name = true
  · rw [a.claim_of_admits hplain]
    constructor
    · rintro (_ | ⟨h, -⟩)
      · rfl
      · simp [hplain] at h
    · rintro rfl
      exact .plain hplain
  · have hplain : a.admits condition name = false := by simpa using hplain
    obtain ⟨n, hsearch, hchoose⟩ := a.search_choose hplain
    have hclaim : a.claim name origin condition = (Naming.suffixed name n,
        a.reserve (Naming.suffixed name n),
        [.renamed name a.scope origin (Naming.suffixed name n)]) := by
      simp [claim, hchoose, hplain]
    rw [hclaim]
    constructor
    · rintro (h | ⟨-, hfound⟩)
      · simp [hplain] at h
      · rw [hsearch.unique hfound]
    · rintro rfl
      exact .suffixed hplain hsearch

end Allocator

theorem Condition.finite_refused (condition : Condition) (name : String) :
    {n | condition.holds (suffixed name n) = false}.Finite := by
  by_contra hinfinite
  obtain ⟨ks, hks, hcard⟩ :=
    Set.Infinite.exists_subset_card_eq hinfinite (condition.exceptions + 1)
  have hle := condition.bounded name ks.toList ks.nodup_toList fun k hk =>
    hks (Finset.mem_toList.1 hk)
  rw [Finset.length_toList] at hle
  omega

/-- The names that are taken and those that the condition refuses block finitely many suffixes. -/
theorem Allocator.finite_blocked (a : Allocator) (condition : Condition) (name : String) :
    {n | a.admits condition (suffixed name n) = false}.Finite := by
  have htaken : {n | suffixed name n ∈ a.taken}.Finite :=
    (List.finite_toSet a.taken).preimage (suffixed_injective name).injOn
  exact (htaken.union (condition.finite_refused name)).subset fun n hn => a.not_admits_iff.1 hn

theorem isKeyword_append {ending : String} (h : ∀ k ∈ keywords, ¬ ending.toList <:+ k.toList)
    (name : String) : isKeyword (name ++ ending) = false := by
  refine isKeyword_eq_false_iff.2 fun hmem => h _ hmem ?_
  rw [String.toList_append]
  exact List.suffix_append _ _

end Naming

open Naming (Allocator Condition suffixed moduleNameFor propertyNameFor)

namespace Model

/-- Different suffixes derive different names, none of which is a reserved word. -/
structure SuffixesApart (name : String) : Prop where
  modules : Function.Injective fun n => moduleNameFor (suffixed name n)
  wrappers : Function.Injective fun n => wrapperName (suffixed name n)
  builders : Function.Injective fun n => builderClassName (suffixed name n)
  modules_free : ∀ n, isKeyword (moduleNameFor (suffixed name n)) = false
  wrappers_free : ∀ n, isKeyword (wrapperName (suffixed name n)) = false
  builders_free : ∀ n, isKeyword (builderClassName (suffixed name n)) = false

theorem suffixesApart (name : String) : SuffixesApart name where
  modules := Naming.moduleNameFor_suffixed_injective name
  wrappers := wrapperName_injective.comp (Naming.suffixed_injective name)
  builders := builderClassName_injective.comp (Naming.suffixed_injective name)
  modules_free _ := Naming.isKeyword_moduleNameFor _
  wrappers_free _ := Naming.isKeyword_append (by decide) _
  builders_free _ := Naming.isKeyword_append (by decide) _

namespace NamingState

variable (s : NamingState)

/-- The names of a class are claimed one after the other, each without a bound. -/
inductive Names (c : DeclaredClass) : NamingState → Prop
  | mk {named filed built : String × Allocator × List Notice}
    (hnamed : s.classes.Claims c.name c.iri s.usable named)
    (hfiled : s.modules.Claims (moduleNameFor named.1) c.iri .none filed)
    (hbuilt : s.builders.Claims (propertyNameFor named.1) c.iri .none built) :
    Names c
      { classes := (named.2.1.reserve (wrapperName named.1)).reserve (builderClassName named.1)
        modules := filed.2.1.reserve (wrapperModule filed.1)
        builders := built.2.1
        names := Assoc.put c.iri ⟨named.1, filed.1, built.1⟩ s.names
        notices := s.notices ++ named.2.2 ++ filed.2.2 ++ built.2.2 }

variable {s}

theorem names_iff {c : DeclaredClass} {t : NamingState} : s.Names c t ↔ t = s.add c := by
  constructor
  · rintro ⟨hnamed, hfiled, hbuilt⟩
    obtain rfl := Allocator.claims_iff.1 hnamed
    obtain rfl := Allocator.claims_iff.1 hfiled
    obtain rfl := Allocator.claims_iff.1 hbuilt
    rfl
  · rintro rfl
    exact .mk (Allocator.claims_iff.2 rfl) (Allocator.claims_iff.2 rfl)
      (Allocator.claims_iff.2 rfl)

/-- How a class is named: finitely many suffixes of its name are blocked, the claim of the name
ends with one result, and that of the module ends with the plain name and no notice. -/
structure Settles (s : NamingState) (c : DeclaredClass) : Prop where
  blocked : {n | s.classes.admits s.usable (suffixed c.name n) = false}.Finite
  claimed : ∃ named, (∀ given, s.classes.Claims c.name c.iri s.usable given ↔ given = named)
    ∧ ∀ filed, s.modules.Claims (moduleNameFor named.1) c.iri .none filed ↔
      filed = (moduleNameFor named.1, s.modules.reserve (moduleNameFor named.1), [])

theorem settles (c : DeclaredClass) : s.Settles c where
  blocked := s.classes.finite_blocked s.usable c.name
  claimed := by
    refine ⟨s.classes.claim c.name c.iri s.usable, fun _ => Allocator.claims_iff,
      fun filed => ?_⟩
    rw [Allocator.claims_iff]
    exact Eq.congr_right (s.modules.claim_of_admits (s.admits_module c) c.iri)

end NamingState

/-! ## Runs -/

/-- Classes are named in order. -/
inductive Runs : NamingState → List DeclaredClass → NamingState → Prop
  | nil {s : NamingState} : Runs s [] s
  | cons {s t u : NamingState} {c : DeclaredClass} {cs : List DeclaredClass}
    (hc : s.Names c t) (hcs : Runs t cs u) : Runs s (c :: cs) u

theorem runs_iff {t : NamingState} : ∀ {cs : List DeclaredClass} {s : NamingState},
    Runs s cs t ↔ t = cs.foldl NamingState.add s
  | [], s => by
    constructor
    · rintro ⟨⟩
      rfl
    · rintro rfl
      exact .nil
  | c :: cs, s => by
    rw [List.foldl_cons, ← runs_iff]
    constructor
    · rintro (_ | ⟨hc, hcs⟩)
      rwa [NamingState.names_iff.1 hc] at hcs
    · exact .cons (NamingState.names_iff.2 rfl)

/-- The name of a class or of a builder was changed. -/
def AboutClass (notice : Notice) : Prop :=
  ∃ name, ∃ scope ∈ ["generated classes", "instance DSL"], ∃ origin unique,
    notice = .renamed name scope origin unique

/-- The names of modules give no notices. -/
structure NamingState.Scoped (s : NamingState) : Prop where
  classes : s.classes.scope = "generated classes"
  builders : s.builders.scope = "instance DSL"
  notices : ∀ notice ∈ s.notices, AboutClass notice

theorem NamingState.Scoped.add {s : NamingState} (h : s.Scoped) (c : DeclaredClass) :
    (s.add c).Scoped where
  classes := by
    simp only [NamingState.add, Allocator.claim, Allocator.scope_reserve]
    exact h.classes
  builders := by
    simp only [NamingState.add, Allocator.claim, Allocator.scope_reserve]
    exact h.builders
  notices := by
    rw [add_notices]
    refine List.forall_mem_append.2 ⟨List.forall_mem_append.2 ⟨h.notices, fun n hn => ?_⟩,
      fun n hn => ?_⟩
    · exact ⟨_, _, by simp [h.classes], _, _, Allocator.notices_claim hn⟩
    · exact ⟨_, _, by simp [h.builders], _, _, Allocator.notices_claim hn⟩

theorem nameClasses_scoped (classes : List DeclaredClass) : (nameClasses classes).Scoped := by
  refine List.foldlRecOn (motive := NamingState.Scoped) classes NamingState.add
    ⟨rfl, rfl, List.forall_mem_nil _⟩ fun s h c _ => h.add c

/-- Naming ends, for any classes and with searches that have no bound, and it ends in one way. When
it comes to a class, finitely many suffixes of its name are blocked, since these derive different
names, and the module of the name that is found is claimed as it is. So all notices are about the
names of classes and builders. -/
theorem naming_ends (classes : List DeclaredClass) :
    (∀ t, Runs {} classes t ↔ t = nameClasses classes)
      ∧ (∀ named c rest, named ++ c :: rest = classes →
        SuffixesApart c.name ∧ (nameClasses named).Settles c)
      ∧ ∀ notice ∈ (nameClasses classes).notices, AboutClass notice :=
  ⟨fun _ => runs_iff, fun _ c _ _ => ⟨suffixesApart c.name, NamingState.settles c⟩,
    (nameClasses_scoped classes).notices⟩

/-- Two classes whose names differ, but not in snake case. -/
def requestClasses : List DeclaredClass :=
  [⟨"http://a/HTTPRequest", "HTTPRequest", []⟩, ⟨"http://a/HttpRequest", "HttpRequest", []⟩]

/-- The second name is free and its module is not, so it is changed, and its module with it. -/
theorem requestClasses_named :
    Runs {} requestClasses (nameClasses requestClasses)
      ∧ (nameClasses requestClasses).names
        = [("http://a/HTTPRequest", ⟨"HTTPRequest", "http_request", "http_request"⟩),
          ("http://a/HttpRequest", ⟨"HttpRequest_2", "http_request_2", "http_request_2"⟩)]
      ∧ (nameClasses requestClasses).notices
        = [.renamed "HttpRequest" "generated classes" "http://a/HttpRequest" "HttpRequest_2"]
      ∧ (nameClasses [⟨"http://a/HTTPRequest", "HTTPRequest", []⟩]).Settles
        ⟨"http://a/HttpRequest", "HttpRequest", []⟩ := by
  obtain ⟨hruns, hsettles, -⟩ := naming_ends requestClasses
  exact ⟨(hruns _).2 rfl, by decide +kernel, by decide +kernel, (hsettles [_] _ [] rfl).2⟩

end Model

end ShapeForge
