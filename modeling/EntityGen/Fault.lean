import EntityGen.Formatter
import EntityGen.Schema.Reader
import EntityGen.Schema.References

/-! Why a task fails. The faults of one artifact are collected, and all others end the task. -/

namespace EntityGen

open Files (FileFault Path)

/-- Why settings are refused. -/
inductive SettingsFault where
  | unreadable (path : Path) (cause : FileFault)
  | unparsable (path : Path)
  | noFormatter
  | noDebounce
deriving DecidableEq, Repr

def SettingsFault.message : SettingsFault → String
  | .unreadable path cause => "Failed to read " ++ path ++ ": " ++ cause.message
  | .unparsable path => "Failed to parse " ++ path
  | .noFormatter => "formatter command must not be empty"
  | .noDebounce => "debounce_ms must be greater than zero"

/-- Why a document cannot be watched. -/
inductive WatchFault where
  | noFileName (path : Path)
  | noDirectory (directory : Path)
deriving DecidableEq, Repr

def WatchFault.message : WatchFault → String
  | .noFileName path => path ++ " is not a file path"
  | .noDirectory directory => directory ++ ": No path was found."

/-- Why a task fails. -/
inductive Fault where
  | missing (path : Path)
  | malformed (path : Path) (cause : Malformation)
  | unresolved (reference : Reference)
  | unwritten (path : Path) (cause : FileFault)
  | unformatted (directory : Path) (cause : FormatFault)
  | inaccessible (path : Path) (cause : FileFault)
  | unwritable
  | settings (cause : SettingsFault)
  | watch (cause : WatchFault)
deriving Inhabited

def Fault.message : Fault → String
  | .missing path => "Schema file not found: " ++ path
  | .malformed path cause => "Malformed document " ++ path ++ ": " ++ cause.message
  | .unresolved reference =>
    "Error in model \"" ++ reference.model ++ "\": referenced model \"" ++ reference.target ++
      "\" in relationship \"" ++ reference.field ++ "\" does not exist in schema"
  | .unwritten path cause => "Failed to write " ++ path ++ ": " ++ cause.message
  | .unformatted directory cause =>
    "Formatter fix failed on " ++ directory ++ ": " ++ cause.message
  | .inaccessible path cause => "I/O error on " ++ path ++ ": " ++ cause.message
  | .unwritable =>
    "Invalid configuration: failed to serialize document: " ++
      "serializing nested enums in YAML is not supported yet"
  | .settings cause => "Invalid configuration: " ++ cause.message
  | .watch cause => "File watcher error: " ++ cause.message

end EntityGen
