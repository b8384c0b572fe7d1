import EntityGen.Proofs.Generation.Gate
import EntityGen.Proofs.Generation.Reconcile
import EntityGen.Proofs.Generation.Steps

/-! What a generation that gets to the files does to the file tree: the mappers directory is created,
what stale directories have is removed, the files are written, and the formatter is run. -/

namespace EntityGen

open Files (FileTree Location Node Path)

namespace Job

/-- Steps leave a report's models and removals as they are. -/
theorem take_kept {steps : List Step} {report result : Report} {workspace after : Workspace}
    (h : take steps report workspace = (.ok result, after)) :
    result.models = report.models ∧ result.removed = report.removed := by
  induction steps generalizing report workspace with
  | nil =>
    obtain ⟨rfl, -⟩ := take_nil h
    exact ⟨rfl, rfl⟩
  | cons step rest ih =>
    cases step with
    | write artifact text =>
      obtain ⟨outcome, mid, -, hRest⟩ := take_write h
      obtain ⟨hModels, hRemoved⟩ := ih hRest
      rw [hModels, hRemoved]
      rcases outcome with fault | written
      · exact ⟨rfl, rfl⟩
      · cases written <;> exact ⟨rfl, rfl⟩
    | tell notice =>
      obtain ⟨mid, -, hRest⟩ := take_tell h
      exact ih hRest

theorem take_removed {steps : List Step} {report result : Report} {workspace after : Workspace}
    (h : take steps report workspace = (.ok result, after)) : result.removed = report.removed :=
  (take_kept h).2

end Job

/-- The files of models with their texts, in the order in which they are written. -/
def modelFiles (directory : Path) (models : List (String × Model)) : List (Artifact × String) :=
  models.flatMap fun (name, model) =>
    [(.ofModel directory .model name, TypeScript.modelText (.ofModel name model)),
      (.ofModel directory .transfer name, TypeScript.transferText (.ofModel name model))]

/-- The files of models' forms with their texts, in the order in which they are written. -/
def formFiles (imports : TypeScript.ImportPaths) (directory : Path)
    (models : List (String × FormModel)) : List (Artifact × String) :=
  models.map fun (name, model) =>
    (.ofModel directory .ruleset name, TypeScript.rulesetText imports (.ofModel name model))

namespace Step

theorem writes_append (first second : List Step) :
    writes (first ++ second) = writes first ++ writes second := by
  induction first with
  | nil => rfl
  | cons step rest ih => cases step <;> simp [writes, ih]

theorem writes_tells (notices : List Notice) : writes (notices.map .tell) = [] := by
  induction notices with
  | nil => rfl
  | cons notice rest ih => exact ih

theorem writes_ofModels (directory : Path) (models : List (String × Model)) :
    writes (models.flatMap fun model => ofModel directory model.1 model.2) =
      modelFiles directory models := by
  induction models with
  | nil => rfl
  | cons model rest ih =>
    rw [List.flatMap_cons, writes_append, ih]
    simp [ofModel, writes, writes_append, writes_tells, modelFiles]

theorem writes_ofForms (imports : TypeScript.ImportPaths) (directory : Path)
    (models : List (String × FormModel)) :
    writes (models.flatMap fun model => ofForm imports directory model.1 model.2) =
      formFiles imports directory models := by
  induction models with
  | nil => rfl
  | cons model rest ih =>
    rw [List.flatMap_cons, writes_append, ih]
    rfl

end Step

/-- The steps are taken and the formatter is run, and neither fails. -/
theorem Generator.finish_run {generator : Generator} {directory : Path} {options : Options}
    {steps : List Step} {initial : Report} {made last : Workspace} {result : Except Fault Report}
    (h : (do
      let report ← Job.take steps initial
      generator.format directory options
      return report : Job Report) made = (result, last)) :
    ∃ report emitted, Job.take steps initial made = (.ok report, emitted) ∧ result = .ok report ∧
      last.tree = generator.formatted directory options emitted.tree := by
  obtain ⟨report, hReport⟩ := Job.take_ok steps initial made
  rcases hTake : Job.take steps initial made with ⟨taken, emitted⟩
  obtain rfl : taken = .ok report := by simpa [hTake] using hReport
  rw [Job.bind_run_ok hTake] at h
  obtain ⟨hFormat, hTree⟩ := generator.format_run directory options emitted
  rcases hRun : generator.format directory options emitted with ⟨formatted, after⟩
  rw [hRun] at hFormat hTree
  obtain rfl : formatted = .ok () := hFormat
  rw [Job.bind_run_ok hRun] at h
  obtain ⟨rfl, rfl⟩ := Prod.mk.inj h
  exact ⟨report, emitted, rfl, rfl, hTree⟩

/-- How a generation of a kind can go once it gets to the files: it fails before one is written, and
then it may have removed some of what is stale, or it writes the files. -/
inductive Emission (generator : Generator) (kind : DocumentKind) (directory : Path)
    (options : Options) (canonical : List String) (files : List (Artifact × String))
    (before : FileTree) : Except Fault Report → FileTree → Prop
  | unlisted {fault : Fault} {after : FileTree} (gains : before.Gains after) :
      Emission generator kind directory options canonical files before (.error fault) after
  | uncleared {fault : Fault} {after : FileTree} {location : Location} {done : List String}
      (leads : (before.createDirAll directory).1.Leads directory location)
      (stale : ∀ name ∈ done, (before.createDirAll directory).1.IsStale location canonical name)
      (gains : ((before.createDirAll directory).1.without (kind.loses location done)).Gains after) :
      Emission generator kind directory options canonical files before (.error fault) after
  | emitted {initial report : Report} {location : Location} {steps : List Step}
      {made emitted : Workspace}
      (leads : (before.createDirAll directory).1.Leads directory location)
      (stale : ∀ name ∈ report.removed,
        (before.createDirAll directory).1.IsStale location canonical name)
      (all : kind = .schema → ∀ name,
        (before.createDirAll directory).1.IsStale location canonical name → name ∈ report.removed)
      (gains : ((before.createDirAll directory).1.without
        (kind.loses location report.removed)).Gains made.tree)
      (writes : Step.writes steps = files) (unfailed : initial.failures = [])
      (taken : Job.take steps initial made = (.ok report, emitted)) :
      Emission generator kind directory options canonical files before (.ok report)
        (generator.formatted directory options emitted.tree)

variable {generator : Generator} {kind : DocumentKind} {directory : Path} {options : Options}
  {canonical : List String} {workspace : Workspace}

/-- What is common to the kinds: the steps are taken after the removal. -/
theorem Emission.of_clearing {steps : List Step} (initial : List String → Report)
    {made last : Workspace} {removed : List String} {result : Except Fault Report}
    (hClear : Job.Clearing kind directory canonical (workspace.tree.createDirAll directory).1
      (.ok removed) made.tree)
    (hInitial : (initial removed).removed = removed ∧ (initial removed).failures = [])
    (h : (do
      let report ← Job.take steps (initial removed)
      generator.format directory options
      return report : Job Report) made = (result, last)) :
    Emission generator kind directory options canonical (Step.writes steps) workspace.tree result
      last.tree := by
  obtain ⟨report, emitted, hTake, rfl, hTree⟩ := Generator.finish_run h
  have hRemoved : report.removed = removed := (Job.take_removed hTake).trans hInitial.1
  rw [hTree]
  cases hClear with
  | done leads stale all gains =>
    subst hRemoved
    exact .emitted leads stale all gains rfl hInitial.2 hTake

theorem Emission.of_uncleared {files : List (Artifact × String)} {fault : Fault}
    {before after : FileTree}
    (hClear : Job.Clearing kind directory canonical (before.createDirAll directory).1
      (.error fault) after) :
    Emission generator kind directory options canonical files before (.error fault) after := by
  cases hClear with
  | unlisted => exact .unlisted (before.createDirAll_gains directory)
  | failed leads stale gains => exact .uncleared leads stale gains

/-- The mappers directory is created, or that fails and no more than directories were created. -/
theorem Job.createDirAll_cases {blame : Files.FileFault → Fault} {path : Path}
    {after : Workspace} {result : Except Fault Unit}
    (h : Job.createDirAll blame path workspace = (result, after)) :
    after.tree = (workspace.tree.createDirAll path).1 := by
  rw [Job.createDirAll_run] at h
  obtain ⟨-, rfl⟩ := Prod.mk.inj h
  rfl

/-- How the file phase of a schema run can go. -/
theorem Generator.emitModels_run {schema : Schema} {selected : List (String × Model)}
    {last : Workspace} {result : Except Fault Report} (hProper : workspace.tree.Proper)
    (h : generator.emitModels directory options schema selected workspace = (result, last)) :
    Emission generator .schema directory options (canonicalDirs (schema.models.map (·.1)))
      (modelFiles directory selected) workspace.tree result last.tree := by
  have hGains := workspace.tree.createDirAll_gains directory
  rcases Job.bind_cases h with ⟨fault, hCreate, rfl⟩ | ⟨_, start, hCreate, hNext⟩
  · rw [← Job.createDirAll_cases hCreate] at hGains
    exact .unlisted hGains
  have hStart := Job.createDirAll_cases hCreate
  have hStartProper : start.tree.Proper := hStart ▸ FileTree.createDirAll_proper hProper directory
  rcases Job.bind_cases hNext with ⟨fault, hClear, rfl⟩ | ⟨changed, made, hClear, hTake⟩
  · exact .of_uncleared (hStart ▸ Job.reconcile_run hStartProper hClear)
  · rw [← Step.writes_ofModels]
    exact .of_clearing (fun removed => { models := selected.map (·.1), removed })
      (hStart ▸ Job.reconcile_run hStartProper hClear) ⟨rfl, rfl⟩ hTake

/-- How the file phase of a forms run can go. -/
theorem Generator.emitRulesets_run {forms : Forms} {selected : List (String × FormModel)}
    {last : Workspace} {result : Except Fault Report} (hProper : workspace.tree.Proper)
    (h : generator.emitRulesets directory options forms selected workspace = (result, last)) :
    Emission generator .forms directory options (canonicalDirs (forms.models.map (·.1)))
      (formFiles generator.imports directory selected) workspace.tree result last.tree := by
  have hGains := workspace.tree.createDirAll_gains directory
  rcases Job.bind_cases h with ⟨fault, hCreate, rfl⟩ | ⟨_, start, hCreate, hNext⟩
  · rw [← Job.createDirAll_cases hCreate] at hGains
    exact .unlisted hGains
  have hStart := Job.createDirAll_cases hCreate
  have hStartProper : start.tree.Proper := hStart ▸ FileTree.createDirAll_proper hProper directory
  rcases Job.bind_cases hNext with ⟨fault, hClear, rfl⟩ | ⟨removed, made, hClear, hTake⟩
  · exact .of_uncleared (hStart ▸ Job.removeStale_run hStartProper hClear)
  · rw [← Step.writes_ofForms]
    exact .of_clearing (fun removed => { models := selected.map (·.1), removed })
      (hStart ▸ Job.removeStale_run hStartProper hClear) ⟨rfl, rfl⟩ hTake

/-- A schema run that gets to the files and succeeds, in any file tree. -/
theorem Generator.emitModels_ok {schema : Schema} {selected : List (String × Model)}
    {last : Workspace} {report : Report}
    (h : generator.emitModels directory options schema selected workspace = (.ok report, last)) :
    ∃ steps initial made emitted, Step.writes steps = modelFiles directory selected ∧
      initial.failures = [] ∧ directory ≠ "" ∧ workspace.tree.AddsNoLink made.tree ∧
      Job.take steps initial made = (.ok report, emitted) ∧
      last.tree = generator.formatted directory options emitted.tree := by
  rcases Job.bind_cases h with ⟨fault, -, hFault⟩ | ⟨_, start, hCreate, hNext⟩
  · cases hFault
  rcases Job.bind_cases hNext with ⟨fault, -, hFault⟩ | ⟨changed, made, hClear, hTake⟩
  · cases hFault
  obtain ⟨taken, emitted, hTaken, hSame, hTree⟩ := finish_run hTake
  obtain rfl := Except.ok.inj hSame
  have hLinks := (Job.reconcile_keeps directory _).run hClear
  refine ⟨_, _, made, emitted, Step.writes_ofModels _ _, rfl, ?_,
    ((Job.createDirAll_keeps _ _).run hCreate).trans hLinks, hTaken, hTree⟩
  rcases Job.bind_cases hClear with ⟨fault, -, hFault⟩ | ⟨names, mid, hList, -⟩
  · cases hFault
  obtain ⟨-, ⟨fault, hFault⟩ | ⟨location, hLeads, -⟩⟩ := Job.existingModelDirs_cases hList
  · cases hFault
  · exact hLeads.notEmpty

end EntityGen
