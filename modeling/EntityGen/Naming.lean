import EntityGen.Text.Case
import EntityGen.Text.Cluster

/-!
The names derived from a model name or an action name: class names, value names, directory and file
stems. A stem puts a hyphen where a small letter meets a capital one and is lower case throughout.
-/

namespace EntityGen

structure ModelNames where
  /-- the name as the document has it -/
  canonical : String
  /-- with a capital initial, for types -/
  className : String
  /-- with a small initial, for values -/
  valueName : String
  /-- lower case with hyphens, for directories and files -/
  stem : String
deriving DecidableEq, Repr

namespace Naming

/-- Whether a hyphen belongs between two neighbouring characters of a name. -/
def isBoundary (left right : Char) : Bool := left.isLower && right.isUpper

/-- Puts a hyphen at each boundary, in one pass that goes on behind both characters of a boundary. -/
def hyphenate : List Char → List Char
  | [] => []
  | [c] => [c]
  | c :: d :: rest =>
    if isBoundary c d then c :: '-' :: d :: hyphenate rest else c :: hyphenate (d :: rest)

def stem (name : String) : String := String.ofList (Text.lower (hyphenate name.toList))

/-- A text with its first character replaced by that character's form in another case. -/
def mapInitial (change : Char → List Char) : List Char → List Char
  | [] => []
  | c :: rest => change c ++ rest

def capitalized (name : String) : String := String.ofList (mapInitial Text.upperChar name.toList)

def uncapitalized (name : String) : String := String.ofList (mapInitial Text.lowerChar name.toList)

def names (name : String) : ModelNames :=
  { canonical := name, className := capitalized name, valueName := uncapitalized name,
    stem := stem name }

/-! ### Words of an action name -/

def isSeparator (cluster : List Char) : Bool := cluster == ['_'] || cluster == ['-'] || cluster == [' ']

def isDigits (cluster : List Char) : Bool := cluster.all Char.isDigit

/-- Whether a cluster has two cases and is written in the upper one. -/
def isUpperCase (cluster : List Char) : Bool :=
  Text.upper cluster != Text.lower cluster && cluster == Text.upper cluster

/-- Whether a cluster has two cases and is written in the lower one. -/
def isLowerCase (cluster : List Char) : Bool :=
  Text.upper cluster != Text.lower cluster && cluster == Text.lower cluster

/-- Whether a word begins between two neighbouring clusters: where lower case turns into upper case,
and where letters and digits meet. -/
def turns (left right : List Char) : Bool :=
  (isLowerCase left && isUpperCase right) ||
    (isDigits right && (isUpperCase left || isLowerCase left)) ||
    (isDigits left && (isUpperCase right || isLowerCase right))

/-- Whether a word begins at a cluster: at a turn, or at the last capital of an acronym. -/
def beginsWord (before? : Option (List Char)) (cluster : List Char) (after? : Option (List Char)) :
    Bool :=
  match before?, after? with
  | none, _ => false
  | some before, none => turns before cluster
  | some before, some after =>
    turns before cluster || (isUpperCase before && isUpperCase cluster && isLowerCase after)

/-- Splits clusters into words; `word` is the word being read, its last cluster first. -/
def splitWords (before? : Option (List Char)) (word : List (List Char)) :
    List (List Char) → List (List (List Char))
  | [] => [word.reverse]
  | cluster :: rest =>
    if isSeparator cluster then word.reverse :: splitWords (some cluster) [] rest
    else if beginsWord before? cluster rest.head? then
      word.reverse :: splitWords (some cluster) [cluster] rest
    else splitWords (some cluster) (cluster :: word) rest

/-- A word with its first cluster in upper case and the others in lower case. -/
def capitalWord : List (List Char) → List Char
  | [] => []
  | first :: rest => Text.upper first ++ Text.lower rest.flatten

/-- An action name as part of a type name: its words capitalized and joined. -/
def pascal (name : String) : String :=
  String.ofList ((splitWords none [] (Text.clusters name.toList)).flatMap capitalWord)

end Naming

end EntityGen
