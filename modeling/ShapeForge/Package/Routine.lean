import ShapeForge.Package.Basic
import ShapeForge.Wrapper.Handle

/-!
# Validation routines

For every class a package has a routine that lists the violations of a node and one that requires
that there are none. Routines call each other by name, and a later definition hides an earlier one
of the same name, also the imported routine that does the work.
-/

namespace ShapeForge

open Rdf (Graph Term)

/-- A routine of the validation module. -/
inductive Routine where
  /-- Lists the violations of a class. -/
  | list (model : ClassModel)
  /-- Fails if the listing routine of the class finds a violation. -/
  | require (model : ClassModel)
deriving Repr, DecidableEq

inductive RoutineError where
  | invalid (error : Invalid)
  | check (error : CheckError)
  /-- A routine is called that takes other arguments, or that is not there. -/
  | badCall
deriving Repr, DecidableEq

namespace Package

/-- The routines in the order in which they are defined. -/
def routines (p : Package) : List (String × Routine) :=
  p.classes.flatMap fun c => [(c.violationsFunction, .list c), (c.validateFunction, .require c)]

/-- The routine of a name. -/
def routine? (p : Package) (name : String) : Option Routine :=
  Assoc.get? name p.routines.reverse

/-- The imported routine that lists the violations of rules. -/
def sharedRoutine : String := "shape_violations"

/-- Calls a routine on a node. A listing routine answers violations, a requiring one nothing.
Calls are as deep as `fuel` allows; each one calls a longer name, so that the number of routines
is enough. -/
def callWith [Platform] (p : Package) (g : Graph) (node : Term) :
    Nat → String → Except RoutineError (Option (List Violation))
  | 0, _ => .error .badCall
  | fuel + 1, name =>
    match p.routine? name with
    | none => .error .badCall
    | some (.list c) =>
      -- A routine of the shared name takes the place of the import, and not its arguments.
      if (p.routine? sharedRoutine).isSome then .error .badCall
      else ((shapeViolations c.rules g node).map some).mapError .check
    | some (.require c) => do
      match ← p.callWith g node fuel c.violationsFunction with
      | none | some [] => return none
      | some violations =>
        throw (.invalid ⟨s!"{c.className} {node.text} failed validation", violations⟩)

def call [Platform] (p : Package) (g : Graph) (node : Term) (name : String) :
    Except RoutineError (Option (List Violation)) :=
  p.callWith g node (p.routines.length + 1) name

end Package

end ShapeForge
