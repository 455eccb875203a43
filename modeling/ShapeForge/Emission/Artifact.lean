import ShapeForge.Emission.Source

/-!
# Artifacts

The files of a package.
-/

namespace ShapeForge.Emission

inductive ArtifactKind where
  | interface
  | wrapper
  | validation
  | instanceDsl
  | package
deriving Repr, DecidableEq

def ArtifactKind.name : ArtifactKind → String
  | .interface => "interface"
  | .wrapper => "wrapper"
  | .validation => "validation"
  | .instanceDsl => "instance_dsl"
  | .package => "package"

/-- A file of a package. -/
structure Artifact where
  path : String
  kind : ArtifactKind
  /-- The class that the file is about, if it is about one. -/
  className : Option String := none
  source : SourceModule
deriving Repr, DecidableEq

def Artifact.content (a : Artifact) : String := a.source.text

end ShapeForge.Emission
