import EntityGen.Entity
import EntityGen.Form.Chain
import EntityGen.Generation.Directories
import EntityGen.Generation.Report
import EntityGen.Scaffold
import EntityGen.TypeScript.Model
import EntityGen.TypeScript.Ruleset
import EntityGen.TypeScript.Transfer

/-!
Generations. A document is loaded and checked before anything is touched; then the directories are
brought into line, and the files of the models asked for are written one after the other. A file that
cannot be written is reported and does not stop the others.
-/

namespace EntityGen

open Files (FileTree Path)

/-- What generates files: the modules that they import from, and the formatter. -/
structure Generator where
  imports : TypeScript.ImportPaths := {}
  command? : Option Command := none
  shell : Shell
  /-- what running a command on a directory leaves of a file tree -/
  effect : Command → Path → FileTree → FileTree := fun _ _ tree => tree

inductive Step where
  | write (artifact : Artifact) (text : String)
  | tell (notice : Notice)

namespace Step

def ofModel (directory : Path) (name : String) (model : Model) : List Step :=
  .write (.ofModel directory .model name) (TypeScript.modelText (.ofModel name model)) ::
    (model.notices name).map .tell ++
    [.write (.ofModel directory .transfer name) (TypeScript.transferText (.ofModel name model)),
      .tell (.generated .schema name)]

/-- The steps for the file of a model's forms. -/
def ofForm (imports : TypeScript.ImportPaths) (directory : Path) (name : String)
    (model : FormModel) : List Step :=
  [.write (.ofModel directory .ruleset name)
      (TypeScript.rulesetText imports (.ofModel name model)),
    .tell (.generated .forms name)]

end Step

namespace Job

/-- Writes a generated file, and adds the outcome to a report. -/
def writeArtifact (artifact : Artifact) (text : String) (report : Report) : Job Report := do
  let outcome ← outcome (writeIfChanged artifact.path text)
  match outcome with
  | .error cause => tell (.artifactFailed artifact cause)
  | .ok _ => pure ()
  return report.add artifact outcome

/-- Takes steps in order, and adds what they do to a report. -/
def take : List Step → Report → Job Report
  | [], report => return report
  | .write artifact text :: rest, report => do take rest (← writeArtifact artifact text report)
  | .tell notice :: rest, report => do
    tell notice
    take rest report

end Job

namespace Generator

/-- The file tree after the formatter was run on a directory, if that is asked for and there is
one. -/
def formatted (generator : Generator) (directory : Path) (options : Options) (tree : FileTree) :
    FileTree :=
  match options.format, generator.command? with
  | true, some command => generator.effect command directory tree
  | _, _ => tree

/-- Runs the formatter on a directory, if that is asked for and there is one. -/
def format (generator : Generator) (directory : Path) (options : Options) : Job Unit :=
  match options.format, generator.command? with
  | true, some command => do
    Job.tell (.formatting command.program directory)
    Job.setTree (generator.formatted directory options (← Job.tree))
    match generator.shell.fault? command directory with
    | some cause => Job.tell (.failed (.unformatted directory cause))
    | none => Job.tell (.formatted command.program)
  | _, _ => pure ()

/-- Brings the directories into line with a checked schema, and writes the files of the selected
ones of its models. -/
def emitModels (generator : Generator) (directory : Path) (options : Options) (schema : Schema)
    (selected : List (String × Model)) : Job Report := do
  Job.createDirAll (.unwritten directory) directory
  let changed ← Job.reconcile directory (canonicalDirs (schema.models.map (·.1)))
  let report ← Job.take (selected.flatMap fun model => Step.ofModel directory model.1 model.2)
    { models := selected.map (·.1), removed := changed.removed }
  generator.format directory options
  return report

/-- Generates the entities and transfer objects of the schema at a path. -/
def generateSchema (generator : Generator) (directory path : Path) (options : Options) :
    Job Report := do
  let schema ← loadSchema path
  if schema.isEmpty then
    Job.tell (.emptyDocument .schema path)
    return {}
  schema.checkReferences
  Job.tellAll ((options.unknown schema.contains).map .unknownName)
  let selected := schema.models.filter fun model => options.includes model.1
  if selected.isEmpty then
    Job.tell (.nothingSelected .schema)
    return {}
  generator.emitModels directory options schema selected

/-- Removes the rulesets of models that the forms no longer have, and writes those of the selected
ones of their models. -/
def emitRulesets (generator : Generator) (directory : Path) (options : Options) (forms : Forms)
    (selected : List (String × FormModel)) : Job Report := do
  Job.createDirAll (.unwritten directory) directory
  let removed ← Job.removeStale directory (canonicalDirs (forms.models.map (·.1)))
    ArtifactKind.ruleset.fileName
  let report ← Job.take
    (selected.flatMap fun model => Step.ofForm generator.imports directory model.1 model.2)
    { models := selected.map (·.1), removed }
  generator.format directory options
  return report

/-- Generates the validation rulesets of the forms at a path. -/
def generateForms (generator : Generator) (directory path : Path) (options : Options) :
    Job Report := do
  let forms ← loadForms path
  if forms.isEmpty then
    Job.tell (.emptyDocument .forms path)
    return {}
  Job.tellAll ((options.unknown fun name => forms.models.any (·.1 == name)).map .unknownName)
  let selected := forms.models.filter fun model => options.includes model.1
  if selected.isEmpty then
    Job.tell (.nothingSelected .forms)
    return {}
  generator.emitRulesets directory options forms selected

def generate (generator : Generator) : DocumentKind → Path → Path → Options → Job Report
  | .schema => generator.generateSchema
  | .forms => generator.generateForms

end Generator

end EntityGen
