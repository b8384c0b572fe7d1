import EntityGen.Form.Reader
import EntityGen.Job
import EntityGen.Yaml.Value.Reader

/-!
Loading documents. A document that is not there, cannot be read or has not the right shape ends the
job; entries of a schema that are passed over are told.
-/

namespace EntityGen

open Files (FileFault Path)
open Yaml (Value)

namespace Schema

/-- What is told about an entry that is passed over. -/
def entryNotices (name : String) : Value → List Notice
  | .map entries => if (kind? entries).isNone then [.entryWithoutKind name] else []
  | other => [.entryNotMapping name other]

/-- What is told while the entries of a schema are read, up to the first that is refused. -/
def noticesOfEntries : List (Value × Value) → List Notice
  | [] => []
  | (key, value) :: rest =>
    match key with
    | .str name =>
      if isModelName name then
        entryNotices name value ++
          match readEntry name value with
          | .ok _ => noticesOfEntries rest
          | .error _ => []
      else []
    | _ => []

def noticesOfValue : Value → List Notice
  | .map entries => noticesOfEntries entries
  | _ => []

def load (path : Path) (value : Value) : Job Schema := do
  Job.tellAll (noticesOfValue value)
  match ofValue value with
  | .ok schema => return schema
  | .error cause => throw (.malformed path cause)

end Schema

def Forms.load (path : Path) (value : Value) : Job Forms :=
  match ofValue value with
  | .ok forms => return forms
  | .error cause => throw (.malformed path cause)

def documentFault (path : Path) : FileFault → Fault
  | .notFound => .missing path
  | cause => .inaccessible path cause

def parseDocument (path : Path) (text : String) : Except Fault Value :=
  match Yaml.parse? text with
  | some value => .ok value
  | none => .error (.malformed path .notYaml)

def loadDocument (path : Path) : Job Value := do
  match (← Job.tree).readText path with
  | .error cause => throw (documentFault path cause)
  | .ok text => liftExcept (parseDocument path text)
where
  liftExcept {α : Type} : Except Fault α → Job α
    | .ok value => return value
    | .error fault => throw fault

def loadSchema (path : Path) : Job Schema := do Schema.load path (← loadDocument path)

def loadForms (path : Path) : Job Forms := do Forms.load path (← loadDocument path)

/-- Ends the job at the first reference that leads nowhere, and tells of those that lead to entries
that are not models. -/
def Schema.checkReferences (schema : Schema) : Job Unit := do
  match schema.dangling? with
  | some reference =>
    Job.tell (.danglingReference reference)
    throw (.unresolved reference)
  | none => Job.tellAll (schema.nonModelReferences.map .referenceToOther)

/-- The notice about a path that nests too deep, of a field of a model. -/
def deepPathNotice? (model field path : String) : Option Notice :=
  match pathSegments path with
  | outer :: inner :: deeper :: more =>
    some (.deepPath model field path outer ((inner :: deeper :: more).getLast (by simp)))
  | _ => none

def Model.notices (name : String) (model : Model) : List Notice :=
  model.mappings.filterMap fun (field, mapping) =>
    deepPathNotice? name field (mapping.sourcePath field)

end EntityGen
