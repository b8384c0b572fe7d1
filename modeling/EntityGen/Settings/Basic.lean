import EntityGen.Fault
import EntityGen.Scaffold
import EntityGen.Text.Blank
import EntityGen.TypeScript.Ruleset

/-! Settings of a project: where its documents and generated files are, and how they are handled. -/

namespace EntityGen

open Files (Path)

/-- Where the editor is served. -/
structure EditorSettings where
  host : String := "127.0.0.1"
  port : Nat := 4510
deriving DecidableEq, Repr

structure Settings where
  mappersDir : Path := "./mappers"
  schemaFile : Path := DocumentKind.schema.fileName
  formsFile : Path := DocumentKind.forms.fileName
  formatting : Bool := false
  watching : Bool := false
  formatter : List String := ["eslint", "--fix"]
  /-- how long a document must rest before a change counts, in milliseconds -/
  debounce : Nat := 300
  imports : TypeScript.ImportPaths := {}
  editor : EditorSettings := {}
deriving DecidableEq, Repr

namespace Settings

def fileName : Path := "mapforge.yaml"

/-- The first fault of settings. -/
def fault? (settings : Settings) : Option SettingsFault :=
  if settings.formatter.all Text.allBlank then some .noFormatter
  else if settings.debounce = 0 then some .noDebounce
  else none

def documentPath (settings : Settings) : DocumentKind → Path
  | .schema => Path.join settings.mappersDir settings.schemaFile
  | .forms => Path.join settings.mappersDir settings.formsFile

def command? (settings : Settings) : Option Command := Command.ofWords? settings.formatter

def editorAddress (settings : Settings) : String :=
  settings.editor.host ++ ":" ++ Number.intText settings.editor.port

end Settings

end EntityGen
