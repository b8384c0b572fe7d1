import EntityGen.CommandLine.Arguments
import EntityGen.CommandLine.Ending
import EntityGen.CommandLine.Environment
import EntityGen.Editor.Service
import EntityGen.Settings.Reader

/-!
The command that serves the editor. The host and the port of the settings give way to those of the
environment, and the port to that of the command line.
-/

namespace EntityGen.CommandLine

open Files (Path)

def editOptions : List OptionSpec :=
  [⟨"config", none, .path⟩, ⟨"port", some 'p', .port⟩, ⟨"help", some 'h', .help⟩,
    ⟨"version", some 'V', .version⟩]

def editVersionText : String := "mapforge-editor 0.1.0"

def editorIn (environment : Environment) (editor : EditorSettings) :
    Except String EditorSettings :=
  let editor := match environment.lookup "EDITOR_HOST" with
    | some host => { editor with host }
    | none => editor
  match environment.lookup "EDITOR_PORT" with
  | none => .ok editor
  | some text =>
    match port? text with
    | some port => .ok { editor with port }
    | none => .error ("Invalid EDITOR_PORT: " ++ text)

/-- Prepares to serve the editor of the project in a directory. -/
def edit (environment : Environment) (directory : Path) (given : Given) : Job Ending := do
  let environment := environment.withFile (← Job.tree) directory
  let settings ← Settings.discover (given.value? "config")
  match editorIn environment settings.editor with
  | .error message => return .failed message
  | .ok editor =>
    let editor := match (given.value? "port").bind port? with
      | some port => { editor with port }
      | none => editor
    let settings := { settings with editor }
    Job.tell (.listening settings.editorAddress)
    Job.tell (.serving (Path.join directory (settings.documentPath .schema)))
    return .serving settings.editorAddress

end EntityGen.CommandLine
