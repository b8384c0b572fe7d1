import EntityGen.Schema.Basic

/-!
References between models. Every relationship must lead to an entry of the schema; one that leads to
an entry that is not a model is allowed, but its import cannot be resolved.
-/

namespace EntityGen

/-- A relationship of a model together with the name of its target. -/
structure Reference where
  model : String
  field : String
  target : String
deriving DecidableEq, Repr

namespace Schema

/-- All references of a schema, in document order. -/
def references (schema : Schema) : List Reference :=
  schema.models.flatMap fun (name, model) =>
    model.relationships.map fun (field, relationship) => ⟨name, field, relationship.target⟩

/-- The first reference to a name that the schema does not have. -/
def dangling? (schema : Schema) : Option Reference :=
  schema.references.find? fun reference => !schema.contains reference.target

def nonModelReferences (schema : Schema) : List Reference :=
  schema.references.filter fun reference =>
    schema.contains reference.target && !schema.hasModel reference.target

end Schema

end EntityGen
