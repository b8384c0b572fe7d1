import EntityGen.Artifact
import EntityGen.DocumentKind
import EntityGen.Fault

/-! What a task tells its user while it runs. -/

namespace EntityGen

open Files (Path)

/-- How urgent a notice is. -/
inductive Level where
  | error
  | warning
  | info
  | debug
deriving DecidableEq, Repr

def Level.name : Level → String
  | .error => "ERROR"
  | .warning => "WARN"
  | .info => "INFO"
  | .debug => "DEBUG"

/-- Something that happened during a task. -/
inductive Notice where
  | failed (cause : Fault)
  | entryNotMapping (name : String) (found : Yaml.Value)
  | entryWithoutKind (name : String)
  | danglingReference (reference : Reference)
  | referenceToOther (reference : Reference)
  | deepPath (model field path outer inner : String)
  | emptyDocument (kind : DocumentKind) (path : Path)
  | unknownName (name : String)
  | nothingSelected (kind : DocumentKind)
  | directoryRemoved (name : String)
  | directoryCreated (name : String)
  | artifactRemoved (path : Path)
  | artifactFailed (artifact : Artifact) (cause : Fault)
  | generated (kind : DocumentKind) (model : String)
  | formatting (program : String) (directory : Path)
  | formatted (program : String)
  | creating (path : Path)
  | created (path : Path)
  | notYetThere (path : Path)
  | unchanged (path : Path)
  | regenerating (kind : DocumentKind) (names : List String)
  | regenerationFailed (path : Path) (cause : Fault)
  | watching (kind : DocumentKind) (path : Path)
  | stoppedWatching (path : Path)
  | schemaUnreadable (cause : Fault)
  | schemaSaved (path : Path)
  | requestFailed (message : String)
  | preparing (kind : DocumentKind)
  | prepared (kind : DocumentKind) (path : Path)
  | generating (kind : DocumentKind)
  | finished (written kept removed : Nat)
  | listening (address : String)
  | serving (path : Path)

namespace Notice

def level : Notice → Level
  | .failed _ | .danglingReference _ | .artifactFailed .. | .schemaUnreadable _
  | .regenerationFailed .. | .requestFailed _ => .error
  | .referenceToOther _ | .deepPath .. | .emptyDocument .. | .unknownName _
  | .nothingSelected _ => .warning
  | .entryNotMapping .. | .entryWithoutKind _ | .directoryCreated _ | .notYetThere _
  | .unchanged _ => .debug
  | _ => .info

def inQuotes (text : String) : String := "\"" ++ text ++ "\""

def text : Notice → String
  | .failed cause => cause.message
  | .entryNotMapping name found => "Entry '" ++ name ++ "' is " ++ found.kind ++ ", ignoring it"
  | .entryWithoutKind name => "Entry '" ++ name ++ "' has no string type, ignoring it"
  | .danglingReference r =>
    "Error in model " ++ inQuotes r.model ++ ": Referenced model " ++ inQuotes r.target ++
      " in relationship " ++ inQuotes r.field ++ " does not exist in schema"
  | .referenceToOther r =>
    "Model " ++ inQuotes r.model ++ ": relationship " ++ inQuotes r.field ++ " references " ++
      inQuotes r.target ++ ", which is not a model; its import will not resolve"
  | .deepPath model field path outer inner =>
    "Field " ++ inQuotes (model ++ "." ++ field) ++ " maps to " ++ inQuotes path ++
      "; only one nesting level is supported, using " ++ outer ++ "." ++ inner
  | .emptyDocument kind path =>
    "Please check the " ++ path ++ " file, and define your " ++ kind.entryLabel ++ "."
  | .unknownName name => "Model " ++ inQuotes name ++ " was requested but is not defined"
  | .nothingSelected .schema => "No models found in schema to process"
  | .nothingSelected .forms => "No forms found to process"
  | .directoryRemoved name => "Removed directory for non-existent model: " ++ name
  | .directoryCreated name => "Created model directory: " ++ name
  | .artifactRemoved path => "Removed stale artifact: " ++ path
  | .artifactFailed artifact cause =>
    "Failed to write " ++ artifact.kind.name ++ " for model " ++ artifact.model ++ ": " ++
      cause.message
  | .generated .schema model => "Generated files for model: " ++ model
  | .generated .forms model => "Generated form rules for model: " ++ model
  | .formatting program directory =>
    "Running " ++ program ++ " fix on " ++ directory ++ " folder..."
  | .formatted program => program ++ " fix completed successfully"
  | .creating path => "Creating " ++ path
  | .created path => "Created " ++ path
  | .notYetThere path => path ++ " does not exist yet"
  | .unchanged path => "No changes detected in " ++ path
  | .regenerating kind names =>
    "Regenerating " ++ kind.entryLabel ++ ": " ++ String.intercalate ", " names
  | .regenerationFailed path cause =>
    "Failed to regenerate from " ++ path ++ ": " ++ cause.message
  | .watching kind path => "Watching " ++ kind.name ++ " " ++ path ++ " for changes"
  | .stoppedWatching path => "Stopped watching " ++ path
  | .schemaUnreadable cause => "Error reading schema file: " ++ cause.message
  | .schemaSaved path => "Schema saved to " ++ path
  | .requestFailed message => message
  | .preparing kind => "Initializing " ++ kind.name ++ " file..."
  | .prepared kind path => kind.name ++ " file ready at " ++ path
  | .generating .schema => "Generating models and DTOs..."
  | .generating .forms => "Generating form rules..."
  | .finished written kept removed =>
    "Generation complete: " ++ Number.intText written ++ " written, " ++
      Number.intText kept ++ " unchanged, " ++ Number.intText removed ++ " removed"
  | .listening address => "mapforge editor bridge listening on " ++ address
  | .serving path => "Serving schema file: " ++ path

end Notice

end EntityGen
