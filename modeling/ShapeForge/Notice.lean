/-!
# Notices

What a run tells its user without failing: a name that had to change, and parts of a shapes graph
that are left out.
-/

namespace ShapeForge

/-- One notice, as the facts that it reports. -/
inductive Notice where
  /-- The name was in use, so its claimant got another one. -/
  | renamed (name scope origin unique : String)
  /-- A node shape names no target class. -/
  | noTargetClass (shape : String)
  /-- A property shape has no path. -/
  | noPath (shape : String)
  /-- The path of a property shape is not a single predicate. -/
  | complexPath (shape : String)
deriving Repr, DecidableEq

def Notice.message : Notice → String
  | .renamed name scope origin unique =>
    s!"Identifier '{name}' already used in {scope}; {origin} renamed to '{unique}'."
  | .noTargetClass shape => s!"NodeShape {shape} has no sh:targetClass, skipping."
  | .noPath shape => s!"Property shape in {shape} has no sh:path, skipping."
  | .complexPath shape => s!"Complex sh:path in shape {shape} is not supported, skipping."

/-- A computation that gives notices and can fail. What was noticed before a failure stays. -/
abbrev Noted (ε : Type) := ExceptT ε (StateM (List Notice))

namespace Noted

def note {ε : Type} (notice : Notice) : Noted ε Unit := modify (· ++ [notice])

def noteAll {ε : Type} (notices : List Notice) : Noted ε Unit := modify (· ++ notices)

/-- The outcome and the notices. -/
def outcome {ε α : Type} (x : Noted ε α) : Except ε α × List Notice := Id.run (x.run.run [])

end Noted

end ShapeForge
