import EntityGen.Document
import EntityGen.Yaml.Writer

/-!
New documents: a header that explains the document, and a line that asks for entries. The header
also stands above documents that are replaced.
-/

namespace EntityGen

open Files (Path)

/-- A line of the header's frame. -/
def headerRule : String := "# " ++ String.ofList (List.replicate 77 '=')

def lines (texts : List String) : String := String.join (texts.map (· ++ "\n"))

namespace DocumentKind

def fileName : DocumentKind → String
  | .schema => "schema.tw"
  | .forms => "form.tw"

def header : DocumentKind → String
  | .schema => lines
    [headerRule,
      "# Schema Definition File",
      headerRule,
      "#",
      "# This file defines the data models and their relationships for the application.",
      "# Each model specifies its properties, types, mappings, and relationships with",
      "# other models.",
      "#",
      "# Structure:",
      "# - Each model is defined with its properties and relationships",
      "# - 'type: model' indicates a model definition",
      "# - 'mappings' define the model's properties and their types",
      "# - 'relationships' define connections between models",
      "#",
      headerRule]
  | .forms => lines
    [headerRule,
      "# Form Validation Definition File",
      headerRule,
      "#",
      "# This file defines the validation rules for the forms of the application.",
      "# Each model lists its actions (e.g. create, update), and each action lists",
      "# the validation rules of its fields.",
      "#",
      "# Structure:",
      "# - Top-level keys are model names",
      "# - Second-level keys are action names",
      "# - Each field declares 'type', 'required', 'nullable' and its constraints",
      "# - 'messages' and 'i18n' attach literal or localized messages per constraint",
      "#",
      headerRule]

/-- The line of a new document that asks for entries. -/
def placeholder : DocumentKind → String
  | .schema => "# Add your models here\n"
  | .forms => "# Add your forms here\n"

end DocumentKind

/-- A text under the header of a document: an empty line stands between them. -/
def underHeader (kind : DocumentKind) (text : String) : String := kind.header ++ "\n" ++ text

def newDocument (kind : DocumentKind) : String := underHeader kind kind.placeholder

def renderDocument (kind : DocumentKind) (value : Yaml.Value) : Except Fault String :=
  match Yaml.write? value with
  | some text => .ok (underHeader kind text)
  | none => .error .unwritable

namespace Job

/-- Writes a file and creates the directories that are missing around it. -/
def writeFile (path : Path) (text : String) : Job Unit := do
  match path.parent? with
  | some directory => createDirAll (.unwritten path) directory
  | none => pure ()
  replaceTree (.unwritten path) ((← Job.tree).write path text.toUTF8)

/-- Writes a file unless it has the text already; whether it was written. -/
def writeIfChanged (path : Path) (text : String) : Job Bool := do
  if (← Job.tree).holds path text.toUTF8 then return false
  writeFile path text
  return true

/-- Makes sure that a directory has a document of a kind, and gives its path. A document that is
there is left as it is. -/
def ensureDocument (kind : DocumentKind) (directory : Path) : Job Path := do
  createDirAll (.unwritten directory) directory
  let path := Path.join directory kind.fileName
  if !(← tree).hasNode path then
    tell (.creating path)
    writeFile path (newDocument kind)
    tell (.created path)
  return path

end Job

end EntityGen
