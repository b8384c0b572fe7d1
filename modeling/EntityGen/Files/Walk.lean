import EntityGen.Files.Fault
import EntityGen.Files.Path
import EntityGen.Files.Tree

/-!
Where a path leads in a file tree. A walk goes from directory to directory, name by name; a symbolic
link on the way sends it to the link's target with the names that are left. A walk ends at a node, or
at a vacant location in an existing directory.
-/

namespace EntityGen.Files

/-- Where a walk ends: at a node, or at a name that is not taken. -/
inductive Place where
  | taken (location : Location)
  | vacant (location : Location)
deriving DecidableEq, Repr

/-- A walk up to its end or to the next link, which leads on from a directory along further names. -/
inductive Stage where
  | ended (place : Place)
  | redirected (directory : Location) (target : String) (rest : List String)
deriving DecidableEq, Repr

/-- The greatest size of a name in bytes. -/
def maxNameSize : Nat := 255

/-- The greatest size of a path in bytes. -/
def maxPathSize : Nat := 4095

/-- How many links a walk may follow. -/
def maxLinks : Nat := 40

namespace FileTree

/-- Walks along names from a directory, up to the first link that is to be followed. A link at the
very end is followed only if `follow` is set. -/
def stage (tree : FileTree) (follow : Bool) (here : Location) :
    List String → Except FileFault Stage
  | [] => .ok (.ended (.taken here))
  | name :: rest =>
    if name == "." then stage tree follow here rest
    else if name == ".." then stage tree follow here.dropLast rest
    else if maxNameSize < name.utf8ByteSize then .error .nameTooLong
    else
      let next := here ++ [name]
      match tree.node? next with
      | none => if rest.isEmpty then .ok (.ended (.vacant next)) else .error .notFound
      | some .directory => stage tree follow next rest
      | some (.file _) => if rest.isEmpty then .ok (.ended (.taken next)) else .error .notDirectory
      | some (.link target) =>
        if rest.isEmpty && !follow then .ok (.ended (.taken next))
        else .ok (.redirected here target rest)

/-- The directory in which a path starts that is found in the given directory. -/
def startOf (here : Location) (path : Path) : Location := if path.isAbsolute then [] else here

/-- Walks along names from a directory, following at most `links` links. -/
def walk (tree : FileTree) (follow : Bool) : Nat → Location → List String → Except FileFault Place
  | links, here, names =>
    match tree.stage follow here names with
    | .error fault => .error fault
    | .ok (.ended place) => .ok place
    | .ok (.redirected directory target rest) =>
      match links with
      | 0 => .error .tooManyLinks
      | links + 1 => walk tree follow links (startOf directory target) (Path.components target ++ rest)

/-- Why a text is no path at all. -/
def pathFault? (path : Path) : Option FileFault :=
  if path.toList.contains '\x00' then some .zeroInPath
  else if path.isEmpty then some .notFound
  else if maxPathSize < path.utf8ByteSize then some .nameTooLong
  else none

/-- Where names lead that are read from a path. -/
def locateNames (tree : FileTree) (follow : Bool) (path : Path) (names : List String) :
    Except FileFault Place :=
  match pathFault? path with
  | some fault => .error fault
  | none => tree.walk follow maxLinks (startOf tree.workingDir path) names

/-- Where a path leads whose last name is to be created or removed: a slash at its end counts for
nothing, and a link there is not followed. -/
def locateEntry (tree : FileTree) (path : Path) : Except FileFault Place :=
  tree.locateNames false path path.components

/-- Where a path leads, through links. After a slash at its end there must be a directory. -/
def locate (tree : FileTree) (path : Path) : Except FileFault Place :=
  tree.locateNames true path (path.components ++ if path.endsWithSlash then ["."] else [])

/-- The node to which a path leads, through links. -/
def nodeAt? (tree : FileTree) (path : Path) : Option Node :=
  match tree.locate path with
  | .ok (.taken location) => tree.node? location
  | _ => none

def hasNode (tree : FileTree) (path : Path) : Bool := (tree.nodeAt? path).isSome

def hasDirectory (tree : FileTree) (path : Path) : Bool :=
  (tree.nodeAt? path).any Node.isDirectory

def hasFile (tree : FileTree) (path : Path) : Bool :=
  match tree.nodeAt? path with
  | some (.file _) => true
  | _ => false

end FileTree

end EntityGen.Files
