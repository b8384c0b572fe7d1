import EntityGen.Schema.Basic
import EntityGen.Text.Blank

/-!
What is checked of a single model when a document is read: its name, its field names and paths, the
targets of its relationships, and that no two of its fields claim one member of the wire object in
different ways.
-/

namespace EntityGen

/-- Why a model definition is refused. -/
inductive ModelFault where
  | emptyField
  | badPath (field path : String)
  | noTarget (relationship : String)
  | wireConflict (field wire other : String)
deriving DecidableEq, Repr

/-- The text of a fault, for a model of the given name. -/
def ModelFault.message (model : String) : ModelFault → String
  | .emptyField => "model '" ++ model ++ "' has an empty field name"
  | .badPath field path =>
    "field '" ++ model ++ "." ++ field ++ "' has an invalid map path '" ++ path ++ "'"
  | .noTarget relationship => "relationship '" ++ model ++ "." ++ relationship ++ "' has no target type"
  | .wireConflict field wire other =>
    "field '" ++ model ++ "." ++ field ++ "' uses wire name '" ++ wire ++ "', which '" ++ model ++
      "." ++ other ++ "' already declares"

def hasDoublePoint : List Char → Bool
  | '.' :: '.' :: _ => true
  | _ :: rest => hasDoublePoint rest
  | [] => false

/-- Whether a model name can name one directory: it is not blank, has no separator, does not begin
with a point and has no two points side by side. -/
def isModelName (name : String) : Bool :=
  let chars := name.toList
  !Text.allBlank name && !chars.contains '/' && !chars.contains '\\' && !hasDoublePoint chars &&
    chars.head? != some '.'

/-- How a declaration takes hold of a member of the wire object. -/
inductive Claim where
  | flat (type : Primitive)
  | nested
  | relation
deriving DecidableEq, Repr

/-- Whether two claims on one member can stand together: fields of one type may share a member, and
nested fields may share a group. -/
def Claim.compatible (a b : Claim) : Bool := a == b && b != .relation

/-- A field or relationship with the member of the wire object that it claims. -/
structure Declaration where
  field : String
  wire : String
  claim : Claim
deriving DecidableEq, Repr

def Field.declaration (name : String) (field : Field) : Declaration :=
  match pathSegments (field.sourcePath name) with
  | outer :: _ :: _ => ⟨name, outer, .nested⟩
  | _ => ⟨name, field.sourcePath name, .flat field.primitive⟩

namespace Model

/-- All declarations of a model: its fields, then its relationships. -/
def declarations (model : Model) : List Declaration :=
  model.mappings.map (fun (name, field) => field.declaration name) ++
    model.relationships.map fun (name, _) => ⟨name, name, .relation⟩

/-- The first declaration that conflicts with an earlier one, given the first claims on the members
declared before. -/
def firstConflict? (claimed : List Declaration) : List Declaration → Option ModelFault
  | [] => none
  | d :: rest =>
    match claimed.find? (·.wire == d.wire) with
    | none => firstConflict? (claimed ++ [d]) rest
    | some other =>
      if other.claim.compatible d.claim then firstConflict? claimed rest
      else some (.wireConflict d.field d.wire other.field)

def fieldFault? (name : String) (field : Field) : Option ModelFault :=
  if name.isEmpty then some .emptyField
  else match field.map with
    | some path => if (pathSegments path).any String.isEmpty then some (.badPath name path) else none
    | none => none

def relationshipFault? (name : String) (relationship : Relationship) : Option ModelFault :=
  if relationship.target.isEmpty then some (.noTarget name) else none

/-- The first fault of a model. -/
def fault? (model : Model) : Option ModelFault :=
  (model.mappings.findSome? fun (name, field) => fieldFault? name field).or <|
    (model.relationships.findSome? fun (name, r) => relationshipFault? name r).or <|
      firstConflict? [] model.declarations

end Model

end EntityGen
