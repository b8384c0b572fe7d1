import EntityGen.Editor.MediaType
import EntityGen.Editor.Schema
import EntityGen.Json.Member

/-!
The service that an editor talks to: it gives what the editor sees, takes a replacement of the schema,
and tells that it is there. A request that is no such request is answered with a status alone.
-/

namespace EntityGen.Editor

structure Request where
  method : String
  /-- the path that is asked for, with a query after it -/
  target : String
  contentType : Option String := none
  body : String := ""

/-- An answer: its status, and a body if it has one. -/
structure Response where
  status : Nat
  body : Option Json := none

/-- What the service can be asked for. -/
inductive Resource where
  | schema
  | health
deriving DecidableEq, Repr

/-- The path that a request asks for, without the query. -/
def Request.path (request : Request) : List Char :=
  request.target.toList.takeWhile fun c => c != '?' && c != '#'

def Resource.ofPath? (path : List Char) : Option Resource :=
  match String.ofList path with
  | "/api/schema" => some .schema
  | "/health" => some .health
  | _ => none

/-- The answer to whether the service is there. -/
def healthJson : Json :=
  .obj [("status", .str "healthy"), ("service", .str "mapforge-editor"), ("version", .str "0.1.0")]

def replacedJson : Json := .obj [("success", .bool true)]

/-- The status and the message of a replacement that failed. -/
def rejection : Fault → Nat × String
  | .malformed path cause => (400, (Fault.malformed path cause).message)
  | fault => (500, "Failed to save schema: " ++ fault.message)

/-- Answers a replacement by a value. -/
def replaceResponse (project : Project) (schema : Json) : Job Response := do
  match ← Job.outcome (replace project schema) with
  | .ok _ => return ⟨200, some replacedJson⟩
  | .error fault =>
    let (status, message) := rejection fault
    Job.tell (.requestFailed message)
    return ⟨status, some (.obj [("error", .str message)])⟩

/-- Answers a request to replace the schema. -/
def replaceRequest (project : Project) (request : Request) : Job Response := do
  if !(request.contentType.map isJsonType).getD false then return ⟨415, none⟩
  match Json.member "schema" request.body with
  | .error .notJson => return ⟨400, none⟩
  | .error .badShape => return ⟨422, none⟩
  | .ok schema => replaceResponse project schema

def resourceJson (project : Project) : Resource → Job Json
  | .schema => do return (← read project).json
  | .health => return healthJson

/-- Answers a request. What may be asked from elsewhere is answered before anything else. -/
def answer (project : Project) (request : Request) : Job Response := do
  if request.method == "OPTIONS" then return ⟨200, none⟩
  match Resource.ofPath? request.path with
  | none => return ⟨404, none⟩
  | some resource =>
    if request.method == "GET" then return ⟨200, some (← resourceJson project resource)⟩
    else if request.method == "HEAD" then
      let _ ← resourceJson project resource
      return ⟨200, none⟩
    else if request.method == "PUT" && resource == .schema then replaceRequest project request
    else return ⟨405, none⟩

end EntityGen.Editor
