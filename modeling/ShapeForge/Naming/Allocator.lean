import ShapeForge.Naming.Suffix
import ShapeForge.Notice

/-!
# Unique names

An allocator hands out names within one scope. The first claimant of a name keeps it; a later one
gets the name with the least numeric suffix that is free, and a notice.
-/

namespace ShapeForge.Naming

/-- The names taken in one scope. -/
structure Allocator where
  scope : String
  taken : List String := []
deriving Repr

/-- A further condition on a claimed name. -/
structure Condition where
  holds : String → Bool
  exceptions : Nat
  /-- Of the suffixed forms of a name, no more are refused than there are exceptions. -/
  bounded : ∀ (name : String) (ks : List Nat), ks.Nodup →
    (∀ k ∈ ks, holds (suffixed name k) = false) → ks.length ≤ exceptions

namespace Condition

def none : Condition where
  holds _ := true
  exceptions := 0
  bounded
    | _, [], _, _ => Nat.le_refl 0
    | _, k :: _, _, h => Bool.noConfusion (h k List.mem_cons_self)

/-- The condition that the name is not in the list. -/
def notIn (names : List String) : Condition where
  holds name := !names.contains name
  exceptions := names.length
  bounded name _ hnodup h :=
    length_le_of_mem (suffixed_injective name) hnodup fun k hk => by simpa using h k hk

end Condition

/-- The least number from `n` on whose suffixed name passes the test, tried `fuel` times. -/
def leastSuffix (ok : String → Bool) (name : String) : Nat → Nat → Nat
  | 0, n => n
  | fuel + 1, n => if ok (suffixed name n) then n else leastSuffix ok name fuel (n + 1)

namespace Allocator

/-- Takes a name without asking whether it is free. -/
def reserve (a : Allocator) (name : String) : Allocator :=
  if a.taken.contains name then a else { a with taken := name :: a.taken }

/-- Whether none of the names is taken. -/
def free (a : Allocator) (names : List String) : Bool :=
  names.all fun name => !a.taken.contains name

/-- Whether the name can be claimed under a condition. -/
def admits (a : Allocator) (condition : Condition) (name : String) : Bool :=
  a.free [name] && condition.holds name

/-- The name that a claim gets: the plain one if it can be claimed, else the one with the least
suffix from 2 on. At most `taken.length + exceptions` suffixes are blocked. -/
def choose (a : Allocator) (name : String) (condition : Condition) : String :=
  if a.admits condition name then
    name
  else
    suffixed name
      (leastSuffix (a.admits condition) name (a.taken.length + condition.exceptions + 1) 2)

/-- Claims a name for `origin`: the name it gets, the allocator that has it taken, and the notice
when it is not the plain name. -/
def claim (a : Allocator) (name origin : String) (condition : Condition) :
    String × Allocator × List Notice :=
  let chosen := a.choose name condition
  let notices := if a.admits condition name then [] else [.renamed name a.scope origin chosen]
  (chosen, a.reserve chosen, notices)

end Allocator

end ShapeForge.Naming
