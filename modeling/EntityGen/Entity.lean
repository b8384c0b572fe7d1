import EntityGen.Naming
import EntityGen.Schema.Basic

/-! Entities: what a model's class in the application has, its fields and its relations. -/

namespace EntityGen

structure EntityField where
  name : String
  type : Primitive
  required : Bool
deriving DecidableEq, Repr

/-- A relation of an entity to others, with the names of the target. -/
structure Relation where
  name : String
  target : ModelNames
  collection : Bool
deriving DecidableEq, Repr

/-- An entity: fields and relations in document order. -/
structure Entity where
  names : ModelNames
  fields : List EntityField
  relations : List Relation
deriving DecidableEq, Repr

def Model.relations (model : Model) : List Relation :=
  model.relationships.map fun (name, relationship) =>
    ⟨name, Naming.names relationship.target, relationship.isCollection⟩

def Entity.ofModel (name : String) (model : Model) : Entity where
  names := Naming.names name
  fields := model.mappings.map fun (name, field) => ⟨name, field.primitive, field.required⟩
  relations := model.relations

end EntityGen
