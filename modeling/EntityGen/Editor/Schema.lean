import EntityGen.Json.Basic
import EntityGen.Scaffold

/-!
What the editor sees of a project, and how it replaces the schema. A replacement must have the shape
of a schema; references are left to the next generation.
-/

namespace EntityGen.Editor

open Files (Path)

/-- The paths that the editor is served. -/
structure Project where
  path : Path
  schemaPath : Path
  formsPath : Path
deriving DecidableEq, Repr

/-- What the editor sees: the paths, and the models of the schema if it can be read. -/
structure State where
  project : Project
  models : Option (List (String × Model))

/-- Reads what the editor sees. A schema that cannot be read is told. -/
def read (project : Project) : Job State := do
  match ← Job.outcome (loadSchema project.schemaPath) with
  | .ok schema => return ⟨project, some schema.models⟩
  | .error cause =>
    Job.tell (.schemaUnreadable cause)
    return ⟨project, none⟩

def replace (project : Project) (schema : Json) : Job Unit := do
  let value := schema.toValue
  let _ ← Schema.load project.schemaPath value
  match renderDocument .schema value with
  | .error fault => throw fault
  | .ok text =>
    Job.writeFile project.schemaPath text
    Job.tell (.schemaSaved project.schemaPath)

/-- A scalar field as the editor is given it; what has its default is left out. -/
def fieldJson (field : Field) : Json :=
  .obj ([("type", .str field.type)] ++ (field.map.toList.map fun path => ("map", Json.str path)) ++
    if field.required then [("required", .bool true)] else [])

def relationshipJson (relationship : Relationship) : Json :=
  .obj [("type", .str relationship.type), ("map", .str relationship.map)]

def modelJson (model : Model) : Json :=
  .obj [("mappings", .obj (model.mappings.map fun (name, field) => (name, fieldJson field))),
    ("relationships",
      .obj (model.relationships.map fun (name, relationship) =>
        (name, relationshipJson relationship)))]

def State.json (state : State) : Json :=
  .obj [("projectPath", .str state.project.path), ("schemaPath", .str state.project.schemaPath),
    ("formPath", .str state.project.formsPath),
    ("schema", match state.models with
      | some models => .obj (models.map fun (name, model) => (name, modelJson model))
      | none => .null)]

end EntityGen.Editor
