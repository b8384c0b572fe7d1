import EntityGen.Entity
import EntityGen.TypeScript.Text

/-! The file of an entity: its class, and the type of its plain data. -/

namespace EntityGen.TypeScript

def modelClass (names : ModelNames) : String := names.className ++ "Model"

/-- The type of an entity's plain data. -/
def plainClass (names : ModelNames) : String := names.className ++ "PlainModel"

def transferClass (names : ModelNames) : String := names.className ++ "DTO"

/-- The type of a relation's member, for classes with a suffix. -/
def relationType (suffix : String) (relation : Relation) : String :=
  relation.target.className ++ suffix ++ (if relation.collection then "[]" else "")

/-- The import of a related class, from the file of the target. -/
def relationImport (suffix file : String) (target : ModelNames) : String :=
  "import type " ++ braced (target.className ++ suffix) ++ " from '../" ++ target.stem ++ "/" ++
    target.stem ++ "." ++ file ++ "'"

def addNew (lines : List String) (line : String) : List String :=
  if lines.contains line then lines else lines ++ [line]

/-- The imports of related classes, each once, in the order of their first use. The model's own
class is none of them. -/
def relationImports (owner : ModelNames) (suffix file : String) (relations : List Relation) :
    List String :=
  (relations.filter (·.target.canonical != owner.canonical)).foldl
    (fun lines relation => addNew lines (relationImport suffix file relation.target)) []

def fieldLine (field : EntityField) : String :=
  "  " ++ propertyKey field.name ++ presence field.required ++ ": " ++ field.type.typeScript

def relationLine (suffix : String) (relation : Relation) : String :=
  "  " ++ propertyKey relation.name ++ "?: " ++ relationType suffix relation

def modelLines (entity : Entity) : List String :=
  let imports := relationImports entity.names "Model" "model" entity.relations
  let name := modelClass entity.names
  imports ++ spacing (!imports.isEmpty) ++
    ["export class " ++ name ++ " " ++ openBrace] ++
    entity.fields.map fieldLine ++
    entity.relations.map (relationLine "Model") ++
    spacing (!entity.fields.isEmpty || !entity.relations.isEmpty) ++
    constructorLines name ++
    [closeBrace, "",
      "export type " ++ plainClass entity.names ++ " = Omit<" ++ name ++ ", 'constructor'>"]

def modelText (entity : Entity) : String := fileText (modelLines entity)

end EntityGen.TypeScript
