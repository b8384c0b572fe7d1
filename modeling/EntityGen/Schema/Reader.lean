import EntityGen.Schema.Check
import EntityGen.Shape

/-! Reading a schema out of a document's tree. -/

namespace EntityGen

open Yaml (Value)

/-- Why a document is malformed. -/
inductive Malformation where
  | notYaml
  | notMapping (found : Value)
  | nameNotText (found : Value)
  | badModelName (name : String)
  | badModel (name : String) (cause : ShapeError)
  | faultyModel (name : String) (fault : ModelFault)
  | badShape (cause : ShapeError)
deriving Inhabited

def Malformation.message : Malformation → String
  | .notYaml => "invalid YAML"
  | .notMapping found => "expected a mapping of model names, found " ++ found.kind
  | .nameNotText found => "model names must be strings, found " ++ found.kind
  | .badModelName name => "model name '" ++ name ++ "' is not a valid directory name"
  | .badModel name cause => "model '" ++ name ++ "': " ++ cause.message
  | .faultyModel name fault => fault.message name
  | .badShape cause => cause.message

namespace Shape

/-- What was read of a record so far, with the names of the fields that were met. -/
structure Draft (α : Type) where
  record : α
  met : List String := []

/-- Reads an entry of a record. `step` reads a field it knows, and gives nothing for another one,
which `unknown` then judges. -/
def readEntry {α : Type} (step : String → Value → α → Option (Result α))
    (unknown : String → Result Unit) (draft : Draft α) (entry : Value × Value) :
    Result (Draft α) := do
  let name ← fieldName entry.1
  match step name entry.2 draft.record with
  | none =>
    unknown name
    return draft
  | some result =>
    if draft.met.contains name then .error (.duplicateField name)
    else return ⟨← result, name :: draft.met⟩

/-- Reads a record entry by entry, starting from its default. -/
def record {α : Type} (step : String → Value → α → Option (Result α))
    (unknown : String → Result Unit) (default : α) (entries : List (Value × Value)) :
    Result (Draft α) :=
  entries.foldlM (readEntry step unknown) ⟨default, []⟩

/-- A field that a record does not know is passed over. -/
def pass (_ : String) : Result Unit := .ok ()

end Shape

namespace Schema

def fieldStep (name : String) (value : Value) (field : Field) : Option (Shape.Result Field) :=
  match name with
  | "type" => some ((Shape.text value).map fun type => { field with type })
  | "map" => some ((Shape.optional Shape.text value).map fun map => { field with map })
  | "required" => some ((Shape.flag value).map fun required => { field with required })
  | _ => none

def readField (value : Value) : Shape.Result Field := do
  let entries ← Shape.entriesAs "struct FieldMapping" value
  return (← Shape.record fieldStep Shape.pass {} entries).record

def relationshipStep (name : String) (value : Value) (relationship : Relationship) :
    Option (Shape.Result Relationship) :=
  match name with
  | "type" => some ((Shape.text value).map fun type => { relationship with type })
  | "map" => some ((Shape.text value).map fun map => { relationship with map })
  | _ => none

/-- Reads a relationship, which must have a type. -/
def readRelationship (value : Value) : Shape.Result Relationship := do
  let entries ← Shape.entriesAs "struct Relationship" value
  let draft ← Shape.record relationshipStep Shape.pass { type := "" } entries
  if draft.met.contains "type" then return draft.record else .error (.missingField "type")

def modelStep (name : String) (value : Value) (model : Model) : Option (Shape.Result Model) :=
  match name with
  | "mappings" =>
    some ((Shape.table readField value).map fun mappings => { model with mappings })
  | "relationships" =>
    some ((Shape.table readRelationship value).map fun relationships =>
      { model with relationships })
  | _ => none

def readModel (entries : List (Value × Value)) : Shape.Result Model := do
  return (← Shape.record modelStep Shape.pass {} entries).record

/-- Takes an entry out of a mapping; the last entry moves into its place. -/
def takeOut (key : String) (entries : List (Value × Value)) : List (Value × Value) :=
  match entries.findIdx? fun entry => entry.1.same (.str key), entries.getLast? with
  | some i, some last => (entries.set i last).dropLast
  | _, _ => entries

def unknownKind : String := "unknown"

/-- The type under which an entry is a model. -/
def modelKind : String := "model"

/-- The type that the mapping of an entry declares. -/
def kind? (entries : List (Value × Value)) : Option String :=
  match Value.lookup? "type" entries with
  | some (.str kind) => some kind
  | _ => none

/-- Reads an entry of a schema. -/
def readEntry (name : String) (value : Value) : Except Malformation Entry :=
  match value with
  | .map entries =>
    match kind? entries with
    | none => .ok (.other unknownKind)
    | some kind =>
      if kind != modelKind then .ok (.other kind)
      else match readModel (takeOut "type" entries) with
        | .error cause => .error (.badModel name cause)
        | .ok model =>
          match model.fault? with
          | some fault => .error (.faultyModel name fault)
          | none => .ok (.model model)
  | _ => .ok (.other unknownKind)

def readNamed (key value : Value) : Except Malformation (String × Entry) :=
  match key with
  | .str name =>
    if isModelName name then (readEntry name value).map (name, ·)
    else .error (.badModelName name)
  | other => .error (.nameNotText other)

/-- Reads a schema; null is the empty one. -/
def ofValue : Value → Except Malformation Schema
  | .null => .ok {}
  | .map entries => (entries.mapM fun entry => readNamed entry.1 entry.2).map Schema.mk
  | other => .error (.notMapping other)

end Schema

end EntityGen
