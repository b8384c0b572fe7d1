import EntityGen.Primitive
import EntityGen.Text.Split

/-!
Schemas: models with scalar fields and relationships to other models. A field may be renamed on the
wire by a path, and a relationship whose type ends in brackets is a collection.
-/

namespace EntityGen

structure Field where
  /-- the name of a primitive type, empty if none is given -/
  type : String := ""
  /-- where the value is found on the wire, if not under the field's own name -/
  map : Option String := none
  required : Bool := false
deriving DecidableEq, Repr

/-- A relationship of a model to a model. -/
structure Relationship where
  /-- the name of the target, with brackets for a collection -/
  type : String
  map : String := ""
deriving DecidableEq, Repr

/-- A model: its scalar fields and its relationships, in document order. -/
structure Model where
  mappings : List (String × Field) := []
  relationships : List (String × Relationship) := []
deriving DecidableEq, Repr

/-- An entry of a schema. Only models are generated; other entries keep their names taken. -/
inductive Entry where
  | model (definition : Model)
  | other (kind : String)
deriving DecidableEq, Repr

/-- A schema document: its entries by name, in document order. -/
structure Schema where
  entries : List (String × Entry) := []
deriving DecidableEq, Repr

/-- The segments of a path as texts; there is always at least one. -/
def pathSegments (path : String) : List String := Text.parts '.' path

namespace Field

/-- Where the value of a field is found on the wire. -/
def sourcePath (field : Field) (name : String) : String := field.map.getD name

def primitive (field : Field) : Primitive := .ofName field.type

end Field

namespace Relationship

def isCollection (relationship : Relationship) : Bool :=
  [']', '['].isPrefixOf relationship.type.toList.reverse

def target (relationship : Relationship) : String :=
  if relationship.isCollection then
    String.ofList (relationship.type.toList.take (relationship.type.toList.length - 2))
  else relationship.type

end Relationship

namespace Schema

def models (schema : Schema) : List (String × Model) :=
  schema.entries.filterMap fun (name, entry) =>
    match entry with
    | .model definition => some (name, definition)
    | .other _ => none

/-- Whether a name is taken, by a model or by another entry. -/
def contains (schema : Schema) (name : String) : Bool := schema.entries.any (·.1 == name)

def hasModel (schema : Schema) (name : String) : Bool := schema.models.any (·.1 == name)

def isEmpty (schema : Schema) : Bool := schema.entries.isEmpty

end Schema

end EntityGen
