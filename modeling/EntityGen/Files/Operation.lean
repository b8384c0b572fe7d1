import EntityGen.Files.Walk

/-!
What can be done to a file tree: reading, listing, writing, creating directories and removing. A
change gives the new tree, and if it fails only as far as it came before the fault.
-/

namespace EntityGen.Files

namespace FileTree

/-- The content of the file to which a path leads. -/
def read (tree : FileTree) (path : Path) : Except FileFault ByteArray :=
  match tree.locate path with
  | .error fault => .error fault
  | .ok (.vacant _) => .error .notFound
  | .ok (.taken location) =>
    match tree.node? location with
    | some (.file content) => .ok content
    | some .directory => .error .isDirectory
    | _ => .error .notFound

/-- Whether a path leads to a file with the given content. -/
def holds (tree : FileTree) (path : Path) (content : ByteArray) : Bool :=
  match tree.read path with
  | .ok existing => existing == content
  | .error _ => false

def readText (tree : FileTree) (path : Path) : Except FileFault String :=
  match tree.read path with
  | .error fault => .error fault
  | .ok content =>
    match String.fromUTF8? content with
    | some text => .ok text
    | none => .error .notText

/-- What is directly in the directory to which a path leads. -/
def list (tree : FileTree) (path : Path) : Except FileFault (List (String × Node)) :=
  match tree.locate path with
  | .error fault => .error fault
  | .ok (.vacant _) => .error .notFound
  | .ok (.taken location) =>
    match tree.node? location with
    | some .directory => .ok (tree.children location)
    | some (.file _) => .error .notDirectory
    | _ => .error .notFound

/-- Writes a file, through links. -/
def write (tree : FileTree) (path : Path) (content : ByteArray) : Except FileFault FileTree :=
  if path.endsWithSlash then
    match tree.locateEntry path with
    | .error fault => .error fault
    | .ok _ => .error .isDirectory
  else
    match tree.locate path with
    | .error fault => .error fault
    | .ok (.vacant location) => .ok (tree.put location (.file content))
    | .ok (.taken location) =>
      match tree.node? location with
      | some (.file _) => .ok (tree.put location (.file content))
      | some .directory => .error .isDirectory
      | _ => .error .notFound

def createDir (tree : FileTree) (path : Path) : Except FileFault FileTree :=
  match tree.locateEntry path with
  | .error fault => .error fault
  | .ok (.taken _) => .error .alreadyThere
  | .ok (.vacant location) => .ok (tree.put location .directory)

/-- Creates the directories of a list of paths of which each lies around the one before it. -/
def createDirs (tree : FileTree) : List Path → FileTree × Option FileFault
  | [] => (tree, none)
  | path :: around =>
    if path.isEmpty then (tree, none)
    else
      match tree.createDir path with
      | .ok created => (created, none)
      | .error .notFound =>
        match createDirs tree around with
        | (outer, some fault) => (outer, some fault)
        | (outer, none) =>
          match outer.createDir path with
          | .ok created => (created, none)
          | .error fault => (outer, if outer.hasDirectory path then none else some fault)
      | .error fault => (tree, if tree.hasDirectory path then none else some fault)

/-- Creates a directory and all that are missing around it; one that exists is left as it is. -/
def createDirAll (tree : FileTree) (path : Path) : FileTree × Option FileFault :=
  tree.createDirs path.ancestors

/-- Removes a directory with all that is in it, or a link to a directory. -/
def removeDirAll (tree : FileTree) (path : Path) : Except FileFault FileTree :=
  match tree.locateEntry path with
  | .error fault => .error fault
  | .ok (.vacant _) => .error .notFound
  | .ok (.taken location) =>
    match tree.node? location with
    | some .directory => .ok (tree.removeAll location)
    | some (.link _) => .ok (tree.remove location)
    | some (.file _) => .error .notDirectory
    | none => .error .notFound

def removeFile (tree : FileTree) (path : Path) : Except FileFault FileTree :=
  match tree.locateEntry path with
  | .error fault => .error fault
  | .ok (.vacant _) => .error .notFound
  | .ok (.taken location) =>
    if (tree.node? location).any Node.isDirectory then .error .isDirectory
    else .ok (tree.remove location)

end FileTree

end EntityGen.Files
