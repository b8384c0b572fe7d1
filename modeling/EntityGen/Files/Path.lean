import EntityGen.Text.Split

/-!
Paths as they are written: segments between slashes. Empty segments count for nothing, and a point
counts only at the start of a relative path. A path is kept as it was written; joining and cutting
paths is done on the text, and only a file tree says what a path leads to.
-/

namespace EntityGen.Files

abbrev Path := String

namespace Path

def isAbsolute (path : Path) : Bool := path.toList.head? == some '/'

def endsWithSlash (path : Path) : Bool := path.toList.getLast? == some '/'

/-- The path of `right` as seen from `left`. An absolute path is seen alike from everywhere. -/
def join (left right : Path) : Path :=
  if right.isAbsolute then right
  else if left.isEmpty || left.endsWithSlash then left ++ right
  else left ++ "/" ++ right

/-- The segments of a path that lead anywhere, points included. -/
def components (path : Path) : List String :=
  (Text.parts '/' path).filter fun segment => !segment.isEmpty

/-- Whether a segment after the first one counts for nothing. -/
def isIdle (segment : String) : Bool := segment.isEmpty || segment == "."

/-- Segments without the idle ones at their end. -/
def trimmed (segments : List String) : List String := (segments.reverse.dropWhile isIdle).reverse

/-- The path without its last segment; none for the root and for the empty path. -/
def parent? (path : Path) : Option Path :=
  match Text.parts '/' path with
  | [] => none
  | first :: rest =>
    match trimmed rest with
    | [] => if first.isEmpty then none else some ""
    | rest =>
      match trimmed rest.dropLast with
      | [] => some (if first.isEmpty then "/" else first)
      | rest => some (String.intercalate "/" (first :: rest))

/-- The name at the end of a path; none if the path ends in two points or names nothing. -/
def fileName? (path : Path) : Option String :=
  match Text.parts '/' path with
  | [] => none
  | first :: rest =>
    let name := ((trimmed rest).getLast?).getD first
    if isIdle name || name == ".." then none else some name

/-- The steps that a path takes, by which paths are told apart: idle segments are left out, and an
absolute path begins with a slash. -/
def steps (path : Path) : List String :=
  match Text.parts '/' path with
  | [] => []
  | first :: rest =>
    let start :=
      if path.isAbsolute then ["/"] else if first.isEmpty then [] else [first]
    start ++ rest.filter fun segment => !isIdle segment

/-- A path and at most `count` of the paths around it, from the inside out. -/
def ancestorsWithin : Nat → Path → List Path
  | 0, path => [path]
  | count + 1, path =>
    match path.parent? with
    | none => [path]
    | some parent => path :: ancestorsWithin count parent

/-- A path and all the paths around it, from the inside out. -/
def ancestors (path : Path) : List Path := ancestorsWithin path.length path

end Path

end EntityGen.Files
