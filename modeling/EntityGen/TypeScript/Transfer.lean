import EntityGen.Transfer
import EntityGen.TypeScript.Model

/-! The file of a transfer object: its class, with the projections onto the entity. -/

namespace EntityGen.TypeScript

/-- A property inside a group of the wire object. -/
def propertyType (property : String × Primitive) : String :=
  propertyKey property.1 ++ ": " ++ property.2.typeScript

/-- The member of a wire value or group. -/
def wireLine : WireMember → String
  | .flat name type required =>
    "  " ++ propertyKey name ++ presence required ++ ": " ++ type.typeScript
  | .group key required properties =>
    "  " ++ propertyKey key ++ presence required ++ ": " ++
      braced (String.intercalate "; " (properties.map propertyType))

/-- The access to a place on the wire object. -/
def wireAccess : WirePath → String
  | .direct name => "this" ++ member name
  | .nested outer inner => "this" ++ member outer ++ optionalMember inner

def projectionLine (projection : Projection) : String :=
  "      " ++ propertyKey projection.field ++ ": " ++ wireAccess projection.source ++ ","

/-- The line that projects a relation, by the method of the same kind. -/
def relationProjectionLine (method : String) (relation : Relation) : String :=
  let access := "this" ++ member relation.name
  let projected :=
    if relation.collection then access ++ "?.map(e => e." ++ method ++ "())"
    else access ++ "?." ++ method ++ "()"
  "      " ++ propertyKey relation.name ++ ": " ++ projected ++ ","

/-- The lines of a projection: one for each field, then one for each relation. -/
def projectionLines (method : String) (transfer : Transfer) : List String :=
  transfer.projections.map projectionLine ++
    transfer.relations.map (relationProjectionLine method)

def entityMethod : String := "toEntity"

/-- The method that makes an entity's plain data. -/
def plainMethod : String := "toPlainEntity"

def transferLines (transfer : Transfer) : List String :=
  let names := transfer.names
  let name := transferClass names
  relationImports names "DTO" "dto" transfer.relations ++
    ["import " ++ braced (modelClass names ++ ", type " ++ plainClass names) ++ " from './" ++
        names.stem ++ ".model'",
      "",
      "export class " ++ name ++ " " ++ openBrace] ++
    transfer.members.map wireLine ++
    transfer.relations.map (relationLine "DTO") ++
    spacing (!transfer.members.isEmpty || !transfer.relations.isEmpty) ++
    constructorLines name ++
    ["",
      "  " ++ entityMethod ++ "(): " ++ modelClass names ++ " " ++ openBrace,
      "    return new " ++ modelClass names ++ "(" ++ openBrace] ++
    projectionLines entityMethod transfer ++
    ["    " ++ closeBrace ++ ")",
      "  " ++ closeBrace,
      "",
      "  " ++ plainMethod ++ "(): " ++ plainClass names ++ " " ++ openBrace,
      "    return " ++ openBrace] ++
    projectionLines plainMethod transfer ++
    ["    " ++ closeBrace, "  " ++ closeBrace, closeBrace]

def transferText (transfer : Transfer) : String := fileText (transferLines transfer)

end EntityGen.TypeScript
