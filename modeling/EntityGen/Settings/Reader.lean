import EntityGen.Job
import EntityGen.Settings.Basic
import EntityGen.Yaml.Value.Reader

/-!
Reading settings. Unlike other documents, settings are read from the text of the nodes: a text
setting takes any scalar as it is written, and what is left empty is an empty table or list. Unknown
and repeated settings are refused.
-/

namespace EntityGen

open Files (Path)
open Yaml (Document Linked Style)
open Yaml.Document (Reading)

namespace Settings

def isLeftEmpty (text : String) (style : Style) : Bool := text.isEmpty && style == .plain

/-- Whether a scalar may be read as a value of a type: it is plain, or a literal block with the
type's tag. -/
def hasPlainText (tag : String) (properties : Yaml.Properties) (style : Style) : Bool :=
  style == .plain || (style == .literal && properties.tag == some tag)

def readText (document : Document) (node : Linked) : Reading String := do
  match ← document.resolve node with
  | .scalar _ text _ => return text
  | _ => failure

def readFlag (document : Document) (node : Linked) : Reading Bool := do
  match ← document.resolve node with
  | .scalar properties text style =>
    if hasPlainText "tag:yaml.org,2002:bool" properties style then Yaml.bool? text else failure
  | _ => failure

/-- The natural that a text denotes: decimal, or in a base that a prefix names. -/
def natural? (text : String) : Option Nat :=
  let digits := match text.toList with
    | '+' :: digits => digits
    | digits => digits
  if Yaml.hasLeadingZero text.toList then none else Yaml.magnitude? digits

def readNatural (limit : Nat) (document : Document) (node : Linked) : Reading Nat := do
  match ← document.resolve node with
  | .scalar properties text style =>
    if hasPlainText "tag:yaml.org,2002:int" properties style then
      ((natural? text).filter (· < limit) : Option Nat)
    else failure
  | _ => failure

def readTexts (document : Document) (node : Linked) : Reading (List String) := do
  match ← document.resolve node with
  | .sequence _ items => items.mapM (readText document)
  | .scalar _ text style => if isLeftEmpty text style then return [] else failure
  | _ => failure

/-- A record, starting from its default. `step` reads the setting of a name. -/
def readRecord {α : Type} (step : String → Linked → α → Reading α) (default : α)
    (document : Document) (node : Linked) : Reading α := do
  match ← document.resolve node with
  | .mapping _ entries =>
    let (record, _) ← entries.foldlM (fun (record, met) (key, value) => do
      let name ← readText document key
      if met.contains name then failure
      return (← step name value record, name :: met)) (default, ([] : List String))
    return record
  | .scalar _ text style => if isLeftEmpty text style then return default else failure
  | _ => failure

def editorStep (document : Document) (name : String) (node : Linked) (editor : EditorSettings) :
    Reading EditorSettings := do
  match name with
  | "host" => return { editor with host := ← readText document node }
  | "port" => return { editor with port := ← readNatural (twoPower 16) document node }
  | _ => failure

def step (document : Document) (name : String) (node : Linked) (settings : Settings) :
    Reading Settings := do
  match name with
  | "mappers_dir" => return { settings with mappersDir := ← readText document node }
  | "schema_file" => return { settings with schemaFile := ← readText document node }
  | "forms_file" => return { settings with formsFile := ← readText document node }
  | "fix_formatting" => return { settings with formatting := ← readFlag document node }
  | "watch" => return { settings with watching := ← readFlag document node }
  | "formatter" => return { settings with formatter := ← readTexts document node }
  | "debounce_ms" => return { settings with debounce := ← readNatural (twoPower 64) document node }
  | "i18n_import_path" =>
    return { settings with imports.i18n := ← readText document node }
  | "validators_import_path" =>
    return { settings with imports.validators := ← readText document node }
  | "editor" =>
    return { settings with editor := ← readRecord (editorStep document) {} document node }
  | _ => failure

/-- The settings in a text; `none` if the text holds no settings. -/
def parse? (text : String) : Option Settings := do
  match ← Yaml.Stream.ofText? text with
  | .empty => return {}
  | .document root =>
    let document ← Document.ofWritten? root
    let (settings, _) ← (readRecord (step document) {} document document.root).run
      document.aliasLimit
    return settings

def load (path : Path) : Job Settings := do
  match (← Job.tree).readText path with
  | .error cause => throw (.settings (.unreadable path cause))
  | .ok text =>
    match parse? text with
    | none => throw (.settings (.unparsable path))
    | some settings =>
      match settings.fault? with
      | some fault => throw (.settings fault)
      | none => return settings

/-- Loads the settings at a path; without a path those in the working directory, and if there are
none, the default ones. -/
def discover (path? : Option Path) : Job Settings := do
  match path? with
  | some path => load path
  | none => if (← Job.tree).hasFile fileName then load fileName else return {}

end Settings

end EntityGen
