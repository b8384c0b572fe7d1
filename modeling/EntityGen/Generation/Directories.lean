import EntityGen.Job
import EntityGen.Text.Order

/-!
The directories of models in the mappers directory. Before entities are generated the directories of
models that are gone are removed and those of new models are created; forms share the directories,
and so only their own files are removed. Hidden directories and those of installed packages are left
alone, and so are plain files.
-/

namespace EntityGen

open Files (FileTree Node Path)

/-- The directory of installed packages. -/
def packagesDir : String := "node_modules"

/-- Whether a directory of this name never belongs to a model. -/
def isSetAside (name : String) : Bool := name.toList.head? == some '.' || name == packagesDir

/-- The directories of models, sorted. -/
def canonicalDirs (models : List String) : List String := Text.sorted (models.map Naming.stem)

/-- The names of the directories among the nodes of a directory that may belong to models, sorted. -/
def modelDirs (nodes : List (String × Node)) : List String :=
  Text.sorted ((nodes.filter fun (name, node) => node.isDirectory && !isSetAside name).map (·.1))

structure Reconciliation where
  removed : List String := []
  created : List String := []
deriving DecidableEq, Repr

namespace Job

/-- The directories in the mappers directory that may belong to models, sorted. -/
def existingModelDirs (directory : Path) : Job (List String) := do
  match (← tree).list directory with
  | .ok nodes => return modelDirs nodes
  | .error cause => throw (.inaccessible directory cause)

def removeModelDirs (directory : Path) : List String → Job Unit
  | [] => pure ()
  | name :: rest => do
    let path := Path.join directory name
    replaceTree (.inaccessible path) ((← tree).removeDirAll path)
    tell (.directoryRemoved name)
    removeModelDirs directory rest

/-- Creates those of some directories in the mappers directory that are missing, and gives their
names. -/
def createModelDirs (directory : Path) : List String → Job (List String)
  | [] => return []
  | name :: rest => do
    let path := Path.join directory name
    if (← tree).hasDirectory path then createModelDirs directory rest
    else
      createDirAll (.unwritten path) path
      tell (.directoryCreated name)
      return name :: (← createModelDirs directory rest)

/-- Removes the directories of models that are not canonical, then creates the canonical ones that
are missing. -/
def reconcile (directory : Path) (canonical : List String) : Job Reconciliation := do
  let removed := (← existingModelDirs directory).filter fun name => !canonical.contains name
  removeModelDirs directory removed
  return ⟨removed, ← createModelDirs directory canonical⟩

/-- Removes the file of a name from each of some directories that has it, and gives the names of
those directories. -/
def removeFiles (directory : Path) (fileName : String → String) : List String → Job (List String)
  | [] => return []
  | name :: rest => do
    let path := (Path.join directory name).join (fileName name)
    if (← tree).hasFile path then
      replaceTree (.inaccessible path) ((← tree).removeFile path)
      tell (.artifactRemoved path)
      return name :: (← removeFiles directory fileName rest)
    else removeFiles directory fileName rest

/-- Removes a file from each directory of a model that is not canonical. -/
def removeStale (directory : Path) (canonical : List String) (fileName : String → String) :
    Job (List String) := do
  let dirs ← existingModelDirs directory
  removeFiles directory fileName (dirs.filter fun name => !canonical.contains name)

end Job

end EntityGen
