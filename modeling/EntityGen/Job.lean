import EntityGen.Files.Operation
import EntityGen.Notice

/-!
Jobs: tasks that work on a file tree, tell what they do, and may end with a fault. What a job did
before a fault stays done.
-/

namespace EntityGen

open Files (FileFault FileTree Node Path)

/-- What a job works on: the file tree, and the notices given so far, in order. -/
structure Workspace where
  tree : FileTree := {}
  notices : List Notice := []

/-- A task on a workspace that may end with a fault. -/
abbrev Job (α : Type) := ExceptT Fault (StateM Workspace) α

namespace Job

def tell (notice : Notice) : Job Unit :=
  modify fun workspace => { workspace with notices := workspace.notices ++ [notice] }

/-- Gives notices in order. -/
def tellAll (notices : List Notice) : Job Unit :=
  modify fun workspace => { workspace with notices := workspace.notices ++ notices }

def tree : Job FileTree := do return (← get).tree

def setTree (tree : FileTree) : Job Unit := modify fun workspace => { workspace with tree }

/-- Replaces the file tree by a changed one, or ends with a fault. -/
def replaceTree (blame : FileFault → Fault) (changed : Except FileFault FileTree) : Job Unit :=
  match changed with
  | .ok tree => setTree tree
  | .error cause => throw (blame cause)

/-- Creates a directory and all that are missing around it, or ends with a fault; what was created
before stays. -/
def createDirAll (blame : FileFault → Fault) (path : Path) : Job Unit := do
  let (tree, fault?) := (← tree).createDirAll path
  setTree tree
  match fault? with
  | none => pure ()
  | some cause => throw (blame cause)

/-- The outcome of a job; its faults become values, and what it did stays done. -/
def outcome {α : Type} (job : Job α) : Job (Except Fault α) := fun workspace =>
  let (result, workspace) := job workspace
  (.ok result, workspace)

end Job

end EntityGen
