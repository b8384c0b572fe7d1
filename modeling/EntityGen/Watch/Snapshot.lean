import EntityGen.Files.Path
import EntityGen.Yaml.Value

/-! Snapshots: for each watched document the state in which it was last handled. -/

namespace EntityGen

open Files (Path)

/-- The snapshots of documents, by the steps of their paths. -/
structure Snapshots where
  entries : List (List String × Yaml.Value) := []

namespace Snapshots

def find? (snapshots : Snapshots) (path : Path) : Option Yaml.Value :=
  snapshots.entries.lookup path.steps

def put (snapshots : Snapshots) (path : Path) (value : Yaml.Value) : Snapshots :=
  ⟨(path.steps, value) :: snapshots.entries.filter fun entry => entry.1 != path.steps⟩

end Snapshots

end EntityGen
