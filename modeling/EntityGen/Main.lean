import EntityGen.CommandLine.Generate

/-!
The program: it takes the files of the working directory as a file tree, carries out the call that
its arguments make, and brings the files into line with the tree that this leaves. It starts no other
program, so that a formatter is always reported as missing.
-/

namespace EntityGen

open CommandLine Files

/-- The nodes in a directory and below it, at their locations. What is in hidden directories and in
those of installed packages is none of the program's business. -/
partial def readEntries (location : Location) : IO (List (Location × Node)) := do
  let path := "/".intercalate ("." :: location)
  let here : IO.FS.DirEntry := { root := path, fileName := "." }
  let mut entries := []
  for entry in ← here.root.readDir do
    let place := location ++ [entry.fileName]
    if ← entry.path.isDir then
      entries := entries ++ [(place, .directory)]
      if !isSetAside entry.fileName then entries := entries ++ (← readEntries place)
    else if ← entry.path.pathExists then
      entries := entries ++ [(place, .file (← IO.FS.readBinFile entry.path))]
  return entries

def readTree : IO FileTree := do return { entries := ← readEntries [] }

def pathOf (location : Location) : String := "/".intercalate ("." :: location)

def removeGone (before after : FileTree) : IO Unit := do
  for (location, node) in before.entries do
    if (after.node? location).isNone then
      if node.isDirectory then
        if (after.node? location.dropLast).isSome then IO.FS.removeDirAll (pathOf location)
      else if (after.node? location.dropLast).isSome then IO.FS.removeFile (pathOf location)

def writeNew (before after : FileTree) : IO Unit := do
  for (location, node) in after.entries do
    if before.node? location != some node then
      match node with
      | .directory => IO.FS.createDirAll (pathOf location)
      | .file content =>
        IO.FS.createDirAll (pathOf location.dropLast)
        IO.FS.writeBinFile (pathOf location) content
      | .link _ => pure ()

def printNotices (notices : List Notice) : IO Unit := do
  for notice in notices do
    if notice.level != .debug then IO.println (notice.level.name ++ " " ++ notice.text)

/-- Does a job on the files of the working directory. -/
def perform {α : Type} (job : Job α) : IO (Except Fault α) := do
  let before ← readTree
  let (result, workspace) := job { tree := before }
  removeGone before workspace.tree
  writeNew before workspace.tree
  printNotices workspace.notices
  return result

/-- No program is ever found. -/
def noShell : Shell := fun _ _ => .error .notFound

/-- Handles changes of watched documents as long as the program runs. -/
partial def keepWatching (registry : Registry) (snapshots : Snapshots) (pause : Nat) : IO Unit := do
  IO.sleep pause.toUInt32
  match ← perform (Registry.handleAll snapshots registry.registrations) with
  | .ok snapshots => keepWatching registry snapshots pause
  | .error _ => keepWatching registry snapshots pause

/-- Carries out a call; the exit code of the program. -/
def carryOut (call : Call) : IO UInt32 := do
  match ← perform (ending (call.run noShell)) with
  | .ok (.watching registry snapshots pause) =>
    IO.println "INFO Watching for changes..."
    keepWatching registry snapshots pause
    return 0
  | .ok (.failed message) =>
    IO.eprintln ("Error: " ++ message)
    return 1
  | .ok _ => return 0
  | .error fault =>
    IO.eprintln ("Error: " ++ fault.message)
    return 1

end EntityGen

/-- Reads the arguments and carries out what they ask for. -/
def main (arguments : List String) : IO UInt32 := do
  match EntityGen.CommandLine.Call.ofArguments arguments with
  | .ok call => EntityGen.carryOut call
  | .error .version =>
    IO.println EntityGen.CommandLine.versionText
    return 0
  | .error .help => return 0
  | .error .usage => return 2
