import EntityGen.Number.Text
import EntityGen.Text.Quoted
import EntityGen.Yaml.Value

/-!
Reading typed values out of a document's tree. Tags are passed over. A table or record may be left
empty as null, an optional value may be null, and everything else must have the type that is wanted.
A reader goes through a record in document order and stops at the first fault.
-/

namespace EntityGen

open Yaml (Value)

/-- Why a value does not have the shape that is wanted. -/
inductive ShapeError where
  | wrongType (found : Value) (wanted : String)
  | missingField (name : String)
  | unknownField (name : String) (expected : List String)
  | duplicateField (name : String)
deriving Inhabited

namespace ShapeError

/-- A float in a message: always with a point, if it is finite. -/
def floatText (x : Number) : String :=
  let text := x.plainText
  if x.isFinite && !text.toList.contains '.' then text ++ ".0" else text

/-- A value as a message about its type names it. -/
def found : Value → String
  | .null => "unit value"
  | .bool b => "boolean `" ++ (if b then "true" else "false") ++ "`"
  | .int i => "integer `" ++ Number.intText i ++ "`"
  | .float x => "floating point `" ++ floatText x ++ "`"
  | .str s => "string " ++ Text.quoted s
  | .seq _ => "sequence"
  | .map _ => "map"
  | .tagged _ value => found value

def message : ShapeError → String
  | .wrongType value wanted => "invalid type: " ++ found value ++ ", expected " ++ wanted
  | .missingField name => "missing field `" ++ name ++ "`"
  | .unknownField name expected =>
    "unknown field `" ++ name ++ "`, expected one of " ++
      String.intercalate ", " (expected.map fun known => "`" ++ known ++ "`")
  | .duplicateField name => "duplicate field `" ++ name ++ "`"

end ShapeError

namespace Shape

abbrev Result (α : Type) := Except ShapeError α

/-- A text, where `wanted` is said to be expected. -/
def textAs (wanted : String) (value : Value) : Result String :=
  match value.untagged with
  | .str s => .ok s
  | other => .error (.wrongType other wanted)

def text (value : Value) : Result String := textAs "a string" value

def fieldName (value : Value) : Result String := textAs "field identifier" value

def flag (value : Value) : Result Bool :=
  match value.untagged with
  | .bool b => .ok b
  | other => .error (.wrongType other "a boolean")

/-- A number; an integer is one. -/
def number (value : Value) : Result Number :=
  match value.untagged with
  | .int i => .ok (.ofInt i)
  | .float x => .ok x
  | other => .error (.wrongType other "f64")

/-- An optional value, absent if null is written without a tag. -/
def optional {α : Type} (read : Value → Result α) : Value → Result (Option α)
  | .null => .ok none
  | value => (read value).map some

/-- The entries of a table or record, where `wanted` is said to be expected. -/
def entriesAs (wanted : String) (value : Value) : Result (List (Value × Value)) :=
  match value.untagged with
  | .map entries => .ok entries
  | .null => .ok []
  | other => .error (.wrongType other wanted)

/-- Puts a value under a key; a key that is there keeps its place. -/
def put {α : Type} (key : String) (value : α) : List (String × α) → List (String × α)
  | [] => [(key, value)]
  | (k, v) :: rest => if k == key then (k, value) :: rest else (k, v) :: put key value rest

/-- A table: values of one type under text keys, in document order. -/
def table {α : Type} (read : Value → Result α) (value : Value) : Result (List (String × α)) := do
  let entries ← entriesAs "a map" value
  entries.foldlM (fun done entry => do
    let key ← text entry.1
    return put key (← read entry.2) done) []

end Shape

end EntityGen
