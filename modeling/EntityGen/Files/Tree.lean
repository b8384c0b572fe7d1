/-!
File trees: directories, files and symbolic links at locations. A location is the list of names that
leads there from the root, so that it is free of links, points and slashes; the root is a directory
that needs no entry.
-/

namespace EntityGen.Files

/-- What is found at a location. -/
inductive Node where
  | directory
  | file (content : ByteArray)
  | link (target : String)
deriving BEq

def Node.isDirectory : Node → Bool
  | .directory => true
  | _ => false

/-- The names from the root down to a node. -/
abbrev Location := List String

/-- A file tree, with the directory from which relative paths start. -/
structure FileTree where
  entries : List (Location × Node) := []
  workingDir : Location := []

namespace FileTree

def node? (tree : FileTree) (location : Location) : Option Node :=
  if location.isEmpty then some .directory else tree.entries.lookup location

def put (tree : FileTree) (location : Location) (node : Node) : FileTree :=
  { tree with
    entries := (location, node) :: tree.entries.filter fun entry => entry.1 != location }

def remove (tree : FileTree) (location : Location) : FileTree :=
  { tree with entries := tree.entries.filter fun entry => entry.1 != location }

/-- Removes the node at a location and all nodes below it. -/
def removeAll (tree : FileTree) (location : Location) : FileTree :=
  { tree with entries := tree.entries.filter fun entry => !location.isPrefixOf entry.1 }

/-- The name of a location, if it lies directly in a directory. -/
def childName? (directory location : Location) : Option String :=
  match location.getLast? with
  | some name => if location.dropLast == directory then some name else none
  | none => none

/-- The nodes directly in a directory, by name. -/
def children (tree : FileTree) (directory : Location) : List (String × Node) :=
  tree.entries.filterMap fun (location, node) =>
    (childName? directory location).map (·, node)

end FileTree

end EntityGen.Files
