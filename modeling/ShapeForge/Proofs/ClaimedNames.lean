import ShapeForge.Proofs.Allocator

/-!
# Runs of an allocator

An allocator serves requests one after the other: a name is reserved whether it is free or not, a
claim is given a name that is free and meets the condition of the claim.

The search for a suffix goes on for as long as names are taken or refused (`Search`), without an end
of its own. It ends at the least suffix that can be claimed (`search_iff`), and there is one, since
a condition refuses finitely many suffixes of a name (`Condition.bounded`). What one step gives is
in `Allocator.served_serve`; a run only adds that taken names stay taken.
-/

namespace ShapeForge.Naming

/-- The search from a number on: to the next one as long as the test fails. -/
inductive Search (ok : String → Bool) (name : String) : ℕ → ℕ → Prop
  | found {n : ℕ} (hn : ok (suffixed name n) = true) : Search ok name n n
  | next {n m : ℕ} (hn : ok (suffixed name n) = false) (hrest : Search ok name (n + 1) m) :
    Search ok name n m

theorem Search.least {ok : String → Bool} {name : String} {m n : ℕ} (h : Search ok name m n) :
    m ≤ n ∧ ok (suffixed name n) = true ∧ ∀ k, m ≤ k → k < n → ok (suffixed name k) = false := by
  induction h with
  | found hn => exact ⟨le_rfl, hn, fun k h1 h2 => by omega⟩
  | @next m n hm _ ih =>
    obtain ⟨hle, hn, hleast⟩ := ih
    refine ⟨by omega, hn, fun k h1 h2 => ?_⟩
    rcases Nat.eq_or_lt_of_le h1 with rfl | h1
    · exact hm
    · exact hleast k h1 h2

/-- The search ends at the least number that passes, and nowhere else. -/
theorem search_iff {ok : String → Bool} {name : String} {m n : ℕ} :
    Search ok name m n ↔
      m ≤ n ∧ ok (suffixed name n) = true ∧ ∀ k, m ≤ k → k < n → ok (suffixed name k) = false := by
  refine ⟨Search.least, ?_⟩
  rintro ⟨hle, hn, hleast⟩
  obtain ⟨d, rfl⟩ := Nat.exists_eq_add_of_le hle
  -- The induction is on the number of steps that the search takes.
  induction d generalizing m with
  | zero => exact .found hn
  | succ d ih =>
    have hd : m + 1 + d = m + (d + 1) := by omega
    refine .next (hleast m le_rfl (by omega)) ?_
    rw [← hd] at hn hleast ⊢
    exact ih (by omega) hn fun k h1 h2 => hleast k (by omega) h2

/-! ## One request -/

/-- What an allocator is asked for. -/
inductive Request where
  | reserve (name : String)
  | claim (name origin : String) (condition : Condition)

/-- A request that was served, with the name that it took. -/
structure Step where
  before : Allocator
  request : Request
  name : String
  notices : List Notice
  after : Allocator

/-- The name that a claim was given. -/
def Step.claimed? (s : Step) : Option String :=
  match s.request with
  | .reserve _ => none
  | .claim _ _ _ => some s.name

/-- What a claim is given: the name itself, without a notice, exactly if it is free and accepted;
else the name with the least suffix that is, with one notice. -/
structure Step.Grants (s : Step) (name origin : String) (condition : Condition) : Prop where
  free : s.name ∉ s.before.taken
  accepted : condition.holds s.name = true
  plain : s.name = name ∧ s.notices = [] ↔ name ∉ s.before.taken ∧ condition.holds name = true
  suffixed : ¬ (name ∉ s.before.taken ∧ condition.holds name = true) →
    ∃ n, Search (s.before.admits condition) name 2 n
      ∧ (2 ≤ n ∧ ∀ k, 2 ≤ k → k < n →
        suffixed name k ∈ s.before.taken ∨ condition.holds (suffixed name k) = false)
      ∧ s.name = suffixed name n ∧ s.notices = [.renamed name s.before.scope origin s.name]

/-- What serving a request does. -/
def Step.Serves (s : Step) : Request → Prop
  | .reserve name => s.name = name ∧ s.notices = []
  | .claim name origin condition => s.Grants name origin condition

namespace Allocator

/-- Serves one request. -/
def serve (a : Allocator) (request : Request) : Step :=
  match request with
  | .reserve name =>
    { before := a, request, name, notices := [], after := a.reserve name }
  | .claim name origin condition =>
    let given := a.claim name origin condition
    { before := a, request, name := given.1, notices := given.2.2, after := given.2.1 }

/-- Serves requests in order. -/
def run (a : Allocator) : List Request → List Step
  | [] => []
  | request :: rest => a.serve request :: (a.serve request).after.run rest

variable (a : Allocator)

@[simp]
theorem serve_before (request : Request) : (a.serve request).before = a := by
  cases request <;> rfl

@[simp]
theorem serve_request (request : Request) : (a.serve request).request = request := by
  cases request <;> rfl

theorem serve_after (request : Request) :
    (a.serve request).after = a.reserve (a.serve request).name := by
  cases request <;> rfl

theorem not_admits_iff {condition : Condition} {name : String} :
    a.admits condition name = false ↔ name ∈ a.taken ∨ condition.holds name = false := by
  rw [← Bool.not_eq_true, admits_iff, not_and_or, not_not, Bool.not_eq_true]

/-- Without the plain name, a claim gets the suffix at which the search ends. -/
theorem search_choose {condition : Condition} {name : String}
    (h : a.admits condition name = false) :
    ∃ n, Search (a.admits condition) name 2 n ∧ a.choose name condition = suffixed name n := by
  obtain ⟨hok, hle, hleast⟩ :=
    leastSuffix_spec (a.admits condition) name _ 2 (a.exists_admitted_suffix name condition)
  refine ⟨_, search_iff.2 ⟨hle, hok, hleast⟩, ?_⟩
  simp [choose, h]

theorem suffixed_ne (name : String) (n : ℕ) : suffixed name n ≠ name := by
  intro h
  have hlength := congrArg (fun s => s.toList.length) h
  rw [toList_suffixed] at hlength
  simp at hlength

theorem serve_claim (name origin : String) (condition : Condition) :
    (a.serve (.claim name origin condition)).Grants name origin condition := by
  obtain ⟨hfree, haccepted⟩ := a.admits_iff.1 (a.admits_choose name condition)
  by_cases hplain : a.admits condition name = true
  · have hname := a.choose_of_admits hplain
    have hadmitted := a.admits_iff.1 hplain
    refine ⟨hfree, haccepted, iff_of_true ⟨hname, ?_⟩ hadmitted, fun h => absurd hadmitted h⟩
    simp [serve, claim, hplain]
  · have hplain : a.admits condition name = false := by simpa using hplain
    obtain ⟨n, hsearch, hchoose⟩ := a.search_choose hplain
    obtain ⟨hle, -, hleast⟩ := hsearch.least
    refine ⟨hfree, haccepted, iff_of_false ?_ ?_, fun _ => ⟨n, hsearch, ⟨hle, ?_⟩, hchoose, ?_⟩⟩
    · rintro ⟨hname, -⟩
      exact suffixed_ne name n (hchoose.symm.trans hname)
    · rw [← admits_iff, serve_before, hplain]
      exact Bool.false_ne_true
    · exact fun k h1 h2 => a.not_admits_iff.1 (hleast k h1 h2)
    · simp [serve, claim, hplain]

theorem served_serve (request : Request) : (a.serve request).Serves request := by
  cases request with
  | reserve name => exact ⟨rfl, rfl⟩
  | claim name origin condition => exact a.serve_claim name origin condition

/-- A claim is given no name that is taken. -/
theorem claimed_serve (request : Request) {x : String} (hx : x ∈ a.taken) :
    (a.serve request).claimed? ≠ some x := by
  cases request with
  | reserve name => simp [serve, Step.claimed?]
  | claim name origin condition =>
    have hfree : a.choose name condition ∉ a.taken :=
      (a.admits_iff.1 (a.admits_choose name condition)).1
    intro heq
    obtain rfl : a.choose name condition = x := Option.some.inj heq
    exact hfree hx

/-! ## Runs -/

theorem run_requests : ∀ (a : Allocator) (requests : List Request),
    (a.run requests).map Step.request = requests
  | _, [] => rfl
  | a, request :: rest => by
    rw [run, List.map_cons, serve_request, run_requests _ rest]

/-- A name that is taken stays taken, so no later claim is given it. -/
theorem claimed_run {x : String} : ∀ (requests : List Request) {a : Allocator},
    x ∈ a.taken → ∀ s ∈ a.run requests, s.claimed? ≠ some x
  | [], _, _ => by simp [run]
  | request :: rest, a, hx => by
    rw [run, List.forall_mem_cons]
    refine ⟨a.claimed_serve request hx, claimed_run rest ?_⟩
    rw [serve_after]
    exact a.mem_taken_reserve.2 (.inr hx)

theorem head_run (a : Allocator) (requests : List Request) :
    ∀ s ∈ (a.run requests).head?, s.before = a := by
  cases requests with
  | nil => simp [run]
  | cons request rest => simp [run]

/-- Every request starts with what the one before it left. -/
theorem isChain_run : ∀ (a : Allocator) (requests : List Request),
    (a.run requests).IsChain fun s t => t.before = s.after
  | _, [] => .nil
  | _, _ :: rest => List.isChain_cons.2 ⟨head_run _ rest, isChain_run _ rest⟩

theorem served_run : ∀ (a : Allocator) (requests : List Request), ∀ s ∈ a.run requests,
    s.Serves s.request ∧ ∀ x, x ∈ s.after.taken ↔ x = s.name ∨ x ∈ s.before.taken
  | _, [] => by simp [run]
  | a, request :: rest => by
    rw [run, List.forall_mem_cons]
    refine ⟨⟨?_, fun x => ?_⟩, served_run _ rest⟩
    · rw [serve_request]
      exact a.served_serve request
    · rw [serve_after, serve_before, mem_taken_reserve]

/-- The name of a request is taken from then on, so a later claim is given another one. -/
theorem pairwise_run : ∀ (a : Allocator) (requests : List Request),
    (a.run requests).Pairwise fun s t => t.claimed? ≠ some s.name
  | _, [] => .nil
  | a, request :: rest => by
    refine List.pairwise_cons.2 ⟨claimed_run rest ?_, pairwise_run _ rest⟩
    rw [serve_after]
    exact a.mem_taken_reserve.2 (.inl rfl)

/-- Every request of a run is served, as `Step.Serves` says, and takes exactly its name. No claim is
given a name that was taken at the start, or one that was reserved or claimed before. -/
theorem claims_of_run (a : Allocator) (requests : List Request) :
    (a.run requests).map Step.request = requests
      ∧ (∀ s ∈ (a.run requests).head?, s.before = a)
      ∧ (a.run requests).IsChain (fun s t => t.before = s.after)
      ∧ (∀ s ∈ a.run requests,
        s.Serves s.request ∧ ∀ x, x ∈ s.after.taken ↔ x = s.name ∨ x ∈ s.before.taken)
      ∧ (∀ x ∈ a.taken, ∀ s ∈ a.run requests, s.claimed? ≠ some x)
      ∧ (a.run requests).Pairwise fun s t => t.claimed? ≠ some s.name :=
  ⟨a.run_requests requests, a.head_run requests, a.isChain_run requests, a.served_run requests,
    fun _ hx => claimed_run requests hx, a.pairwise_run requests⟩

/-- A suffixed name that is claimed first, then its plain name twice, with one more suffix reserved
and one refused. -/
def titleRequests : List Request :=
  [.claim "title_2" "p" .none, .claim "title" "q" .none, .reserve "title_3",
    .claim "title" "r" (.notIn ["title_4"])]

/-- The last claim skips all three suffixes. -/
theorem titles_claimed :
    ((Allocator.mk "book" ["isbn"]).run titleRequests).map Step.claimed?
        = [some "title_2", some "title", none, some "title_5"]
      ∧ ((Allocator.mk "book" ["isbn"]).run titleRequests).Pairwise
        (fun s t => t.claimed? ≠ some s.name)
      ∧ ∀ s ∈ (Allocator.mk "book" ["isbn"]).run titleRequests, s.Serves s.request := by
  obtain ⟨-, -, -, hserved, -, hpairwise⟩ := claims_of_run ⟨"book", ["isbn"]⟩ titleRequests
  exact ⟨by decide +kernel, hpairwise, fun s hs => (hserved s hs).1⟩

end Allocator

end ShapeForge.Naming
