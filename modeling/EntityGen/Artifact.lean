import EntityGen.Files.Path
import EntityGen.Naming

/-! Generated files: their kinds, their names and their places. -/

namespace EntityGen

open Files (Path)

/-- The kinds of generated files. -/
inductive ArtifactKind where
  | model
  | transfer
  | ruleset
deriving DecidableEq, Repr

namespace ArtifactKind

def name : ArtifactKind → String
  | .model => "model"
  | .transfer => "transfer-object"
  | .ruleset => "validation-ruleset"

/-- What stands before the extension in the name of a file of a kind. -/
def suffix : ArtifactKind → String
  | .model => "model"
  | .transfer => "dto"
  | .ruleset => "form"

def fileName (kind : ArtifactKind) (stem : String) : String := stem ++ "." ++ kind.suffix ++ ".ts"

end ArtifactKind

/-- A generated file of a model. -/
structure Artifact where
  model : String
  kind : ArtifactKind
  path : Path
deriving DecidableEq, Repr

/-- The place of a model's file of a kind: in the model's directory. -/
def artifactPath (directory : Path) (kind : ArtifactKind) (model : String) : Path :=
  (Path.join directory (Naming.stem model)).join (kind.fileName (Naming.stem model))

def Artifact.ofModel (directory : Path) (kind : ArtifactKind) (model : String) : Artifact :=
  ⟨model, kind, artifactPath directory kind model⟩

end EntityGen
