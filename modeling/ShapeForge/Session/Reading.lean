import ShapeForge.Assoc
import ShapeForge.Value.Scalar
import ShapeForge.Wrapper.Registry

/-!
# Readings

What an accessor has read: a value, a node, a wrapped node, or a list of them. A wrapped node
remembers what its own accessors have read, so a reading is a tree that grows where it is
followed.
-/

namespace ShapeForge

open Rdf (Term)

/-- What an accessor has read. -/
inductive Reading where
  | absent
  | scalar (value : ScalarValue)
  | node (node : Term)
  | object (wrapped : Wrapped) (memo : List (String × Reading))
  | list (items : List Reading)

/-- A step of a path through readings. -/
inductive PathStep where
  | member (name : String)
  /-- An index; a negative one counts from the end. -/
  | index (position : Int)
deriving Repr, DecidableEq

/-- Why a path leads nowhere. -/
inductive PathError (ε : Type) where
  | noMember
  | notIndexable
  | outOfRange
  /-- An accessor fails. -/
  | unread (error : ε)

/-- The position that an index means in a list of some length. -/
def positionOf? (length : Nat) (index : Int) : Option Nat :=
  let position := if index < 0 then index + length else index
  if 0 ≤ position ∧ position < length then some position.toNat else none

namespace Reading

/-- The text of a reading that is one. -/
def text? : Reading → Option String
  | .scalar (.text s _) => some s
  | .node t => some t.text
  | _ => none

/-- Follows a path. The result is what it leads to, and the reading with all that was read on the
way; `read` reads an accessor of a wrapped node. -/
def follow {ε : Type} (read : Wrapped → String → Except (PathError ε) Reading) :
    List PathStep → Reading → Except (PathError ε) Reading × Reading
  | [], r => (.ok r, r)
  | .member name :: path, .object w memo =>
    match (Assoc.get? name memo).elim (read w name) Except.ok with
    | .error e => (.error e, .object w memo)
    | .ok r =>
      let (result, r) := follow read path r
      (result, .object w (Assoc.put name r memo))
  | .member "lang" :: path, .scalar (.text s (some tag)) =>
    ((follow read path (.scalar (.text tag none))).1, .scalar (.text s (some tag)))
  | .member _ :: _, r => (.error .noMember, r)
  | .index i :: path, .list items =>
    match positionOf? items.length i with
    | none => (.error .outOfRange, .list items)
    | some n =>
      match items[n]? with
      | none => (.error .outOfRange, .list items)
      | some r =>
        let (result, r) := follow read path r
        (result, .list (items.set n r))
  | .index i :: path, r =>
    match r.text? with
    | none => (.error .notIndexable, r)
    | some s =>
      match (positionOf? s.toList.length i).bind fun n => s.toList[n]? with
      | none => (.error .outOfRange, r)
      | some c => ((follow read path (.scalar (.text c.toString none))).1, r)

end Reading

end ShapeForge
