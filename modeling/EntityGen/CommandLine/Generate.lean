import EntityGen.CommandLine.Arguments
import EntityGen.CommandLine.Ending
import EntityGen.Settings.Reader

/-!
The command that makes documents and generates what they describe. A document that is named on the
command line decides the mappers directory too.
-/

namespace EntityGen.CommandLine

open Files (Path)

/-- What is to be done with a document. -/
inductive Action where
  | prepare (document : Option Path)
  | generate (document : Option Path) (names : List String) (format watch : Bool)
      (i18n : Option String)
deriving DecidableEq, Repr

structure Call where
  settings : Option Path
  kind : DocumentKind
  action : Action
deriving DecidableEq, Repr

def versionText : String := "mapforge 0.1.0"

def settingsOption : OptionSpec := ⟨"config", none, .path⟩

def helpOption : OptionSpec := ⟨"help", some 'h', .help⟩

def documentOption : OptionSpec := ⟨"schema", some 's', .path⟩

def rootOptions : List OptionSpec := [settingsOption, helpOption, ⟨"version", some 'V', .version⟩]

def kindOptions : List OptionSpec := [settingsOption, helpOption]

def prepareOptions : List OptionSpec := [settingsOption, helpOption, documentOption]

def generateOptions (kind : DocumentKind) : List OptionSpec :=
  prepareOptions ++
    [⟨"fix", some 'f', .flag⟩, ⟨"models", some 'm', .list⟩, ⟨"watch", some 'w', .flag⟩] ++
    if kind = .forms then [⟨"i18n-path", some 'i', .text⟩] else []

def generateAction (given : Given) : Action :=
  .generate (given.value? "schema") (given.values "models") (given.has "fix") (given.has "watch")
    (given.value? "i18n-path")

/-- The settings file: the one named last wins, from the command to its subcommands. -/
def settingsOf (levels : List Given) : Option Path :=
  levels.reverse.findSome? fun given => given.value? "config"

def readKind (kind : DocumentKind) (above : Given) (arguments : List String) :
    Except Interruption Call := do
  let (own, rest) ← readOptions kindOptions [] arguments
  match rest with
  | "init" :: rest =>
    let given ← readAll prepareOptions rest
    return ⟨settingsOf [above, own, given], kind, .prepare (given.value? "schema")⟩
  | "generate" :: rest =>
    let given ← readAll (generateOptions kind) rest
    return ⟨settingsOf [above, own, given], kind, generateAction given⟩
  | "help" :: _ => throw .help
  | _ => throw .usage

def Call.ofArguments (arguments : List String) : Except Interruption Call := do
  let (given, rest) ← readOptions rootOptions [] arguments
  match rest with
  | "mapper" :: rest => readKind .schema given rest
  | "form" :: rest => readKind .forms given rest
  | "help" :: _ => throw .help
  | _ => throw .usage

/-- The mappers directory and the document: those of the settings, unless a document is named. -/
def locations (settings : Settings) (kind : DocumentKind) : Option Path → Path × Path
  | some document =>
    match document.parent? with
    | some parent => (if parent.isEmpty then "." else parent, document)
    | none => (".", document)
  | none => (settings.mappersDir, settings.documentPath kind)

def generatorOf (settings : Settings) (shell : Shell) : Generator :=
  { imports := settings.imports, command? := settings.command?, shell }

/-- Makes the document of a kind, unless it is there. -/
def prepare (settings : Settings) (kind : DocumentKind) (document : Option Path) : Job Ending := do
  let (directory, _) := locations settings kind document
  Job.tell (.preparing kind)
  let path ← Job.ensureDocument kind directory
  Job.tell (.prepared kind path)
  return .done

/-- Watches a document from now on. -/
def watchOn (pause : Nat) (watch : Watch) : Job Ending := do
  let (_, registry) := Registry.register {} watch
  let (registry, snapshots, fault?) ← registry.start {}
  match fault? with
  | some fault => throw fault
  | none => return .watching registry snapshots pause

/-- Generates from a document, and watches it if that is asked for. -/
def generate (settings : Settings) (shell : Shell) (kind : DocumentKind) (document : Option Path)
    (options : Options) (watching : Bool) : Job Ending := do
  let (directory, path) := locations settings kind document
  let generator := generatorOf settings shell
  Job.tell (.generating kind)
  let report ← generator.generate kind directory path options
  Job.tell (.finished report.written.length report.unchanged.length report.removed.length)
  if !report.isSuccess then
    return .failed (Number.intText report.failures.length ++ " artifact(s) failed to generate")
  if watching then watchOn settings.debounce { kind, directory, path, options, generator }
  else return .done

/-- The names that restrict a generation, if any are given. -/
def restriction (names : List String) : Option (List String) :=
  if names.isEmpty then none else some names

def Action.run (settings : Settings) (shell : Shell) (kind : DocumentKind) : Action → Job Ending
  | .prepare document => CommandLine.prepare settings kind document
  | .generate document names format watch i18n =>
    let settings := match i18n with
      | some path => { settings with imports.i18n := path }
      | none => settings
    CommandLine.generate settings shell kind document
      ⟨format || settings.formatting, restriction names⟩ (watch || settings.watching)

def Call.run (shell : Shell) (call : Call) : Job Ending := do
  let settings ← Settings.discover call.settings
  call.action.run settings shell call.kind

end EntityGen.CommandLine
