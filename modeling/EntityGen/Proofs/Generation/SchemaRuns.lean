import EntityGen.Proofs.Generation.Inputs
import EntityGen.Proofs.Generation.Placement

/-! Runs of a schema that is stored outside the directories of models. A run brings the mappers
directory into line, which depends on the file tree only, and puts the files of the models that it is
asked for at their places; all other files stay as they are, the document among them. -/

namespace EntityGen

open Files (FileTree IsSegment IsName Location Node Path)

/-! ### Jobs that do not look at the notices -/

namespace Job

variable {α β : Type}

/-- What a job comes to depends on the file tree only. -/
def Blind (job : Job α) : Prop :=
  ∀ first second : Workspace, first.tree = second.tree →
    (job first).1 = (job second).1 ∧ (job first).2.tree = (job second).2.tree

namespace Blind

theorem pure (a : α) : Blind (Pure.pure a : Job α) := fun _ _ h => ⟨rfl, h⟩

theorem throw (fault : Fault) : Blind (MonadExcept.throw fault : Job α) := fun _ _ h => ⟨rfl, h⟩

theorem tell (notice : Notice) : Blind (tell notice) := fun _ _ h => ⟨rfl, h⟩

theorem tree : Blind Job.tree := fun _ _ h => ⟨congrArg Except.ok h, h⟩

theorem bind {job : Job α} {next : α → Job β} (hJob : Blind job) (hNext : ∀ a, Blind (next a)) :
    Blind (job >>= next) := by
  intro first second h
  obtain ⟨hResult, hTree⟩ := hJob first second h
  rw [bind_run, bind_run]
  rcases hFirst : job first with ⟨result, after⟩
  rcases hSecond : job second with ⟨other, last⟩
  rw [hFirst, hSecond] at hResult hTree
  obtain rfl : result = other := hResult
  rcases result with fault | a
  · exact ⟨rfl, hTree⟩
  · exact hNext a after last hTree

theorem replaceTree (blame : Files.FileFault → Fault) (changed : Except Files.FileFault FileTree) :
    Blind (replaceTree blame changed) := by
  rcases changed with cause | tree
  · exact .throw _
  · exact fun _ _ _ => ⟨rfl, rfl⟩

theorem createDirAll (blame : Files.FileFault → Fault) (path : Path) :
    Blind (createDirAll blame path) := by
  intro first second h
  rw [createDirAll_run, createDirAll_run, h]
  exact ⟨rfl, rfl⟩

end Blind

theorem removeModelDirs_blind (path : Path) (names : List String) :
    Blind (removeModelDirs path names) := by
  induction names with
  | nil => exact .pure ()
  | cons name rest ih =>
    exact .bind .tree fun _ => .bind (.replaceTree _ _) fun _ => .bind (.tell _) fun _ => ih

theorem createModelDirs_blind (path : Path) (names : List String) :
    Blind (createModelDirs path names) := by
  induction names with
  | nil => exact .pure []
  | cons name rest ih =>
    refine .bind .tree fun tree => ?_
    split
    · exact ih
    · exact .bind (.createDirAll _ _) fun _ => .bind (.tell _) fun _ => .bind ih fun _ => .pure _

theorem existingModelDirs_blind (path : Path) : Blind (existingModelDirs path) := by
  refine .bind .tree fun tree => ?_
  rcases tree.list path with cause | nodes
  · exact .throw _
  · exact .pure _

/-- The mappers directory is created if it is missing, and brought into line with the directories of
models. -/
def align (path : Path) (canonical : List String) : Job Reconciliation := do
  createDirAll (.unwritten path) path
  reconcile path canonical

theorem align_blind (path : Path) (canonical : List String) : Blind (align path canonical) :=
  .bind (.createDirAll _ _) fun _ => .bind (existingModelDirs_blind path) fun _ =>
    .bind (removeModelDirs_blind path _) fun _ => .bind (createModelDirs_blind path _) fun _ =>
      .pure _

theorem align_aligned {path : Path} {canonical : List String} {changed : Reconciliation}
    {workspace last : Workspace} (hProper : workspace.tree.Proper)
    (hCanonical : ∀ name ∈ canonical, name ≠ "")
    (h : align path canonical workspace = (.ok changed, last)) :
    ∃ directory, Aligned path directory canonical changed.removed
      (workspace.tree.createDirAll path).1 last.tree := by
  rcases bind_cases h with ⟨fault, -, hFault⟩ | ⟨_, start, hCreate, hReconcile⟩
  · cases hFault
  have hStart := createDirAll_cases hCreate
  rw [← hStart]
  exact reconcile_aligned (hStart ▸ FileTree.createDirAll_proper hProper path) hCanonical hReconcile

end Job

/-! ### One run -/

variable {generator : Generator} {directory path : Path} {options : Options} {schema : Schema}
  {workspace last : Workspace} {report : Report} {location : Location}

/-- The directories of the models of a schema. -/
abbrev Schema.dirs (schema : Schema) : List String := canonicalDirs (schema.models.map (·.1))

theorem Generator.emitModels_eq (generator : Generator) (directory : Path) (options : Options)
    (schema : Schema) (selected : List (String × Model)) :
    generator.emitModels directory options schema selected = (do
      let changed ← Job.align directory schema.dirs
      let report ← Job.take (selected.flatMap fun model => Step.ofModel directory model.1 model.2)
        { models := selected.map (·.1), removed := changed.removed }
      generator.format directory options
      return report) := by
  rw [emitModels, Job.align, bind_assoc]

/-- The steps of a run that is asked for some models. -/
abbrev Options.steps (options : Options) (directory : Path) (schema : Schema) : List Step :=
  (options.selectModels schema).flatMap fun model => Step.ofModel directory model.1 model.2

theorem Options.writes_steps (options : Options) (directory : Path) (schema : Schema) :
    Step.writes (options.steps directory schema) =
      modelFiles directory (options.selectModels schema) :=
  Step.writes_ofModels directory (options.selectModels schema)

/-- A run of a schema that passes the gate gets to the files, if it is asked for a model. -/
theorem Generator.generateSchema_emits (generator : Generator) (directory : Path)
    (hLoad : (loadSchema path workspace).1 = .ok schema)
    (hResolved : schema.dangling? = none) (hSelected : options.selectModels schema ≠ []) :
    ∃ passed, passed.tree = workspace.tree ∧
      generator.generateSchema directory path options workspace =
        generator.emitModels directory options schema (options.selectModels schema) passed := by
  have hWay := generator.schemaRun directory path options workspace
  generalize generator.generateSchema directory path options workspace = run at hWay
  cases hWay with
  | unloaded load => simp [hLoad] at load
  | @empty read _ load empty =>
    obtain rfl : schema = read := by simpa [hLoad] using load
    exact absurd (by simp [Options.selectModels, Schema.models, empty]) hSelected
  | @dangling read _ _ load dangling =>
    obtain rfl : schema = read := by simpa [hLoad] using load
    simp [hResolved] at dangling
  | @unselected read _ load _ unselected =>
    obtain rfl : schema = read := by simpa [hLoad] using load
    exact absurd unselected hSelected
  | @emitted read passed load _ _ kept =>
    obtain rfl : schema = read := by simpa [hLoad] using load
    exact ⟨passed, kept, rfl⟩

section

variable (hLoad : (loadSchema path workspace).1 = .ok schema) (hResolved : schema.dangling? = none)
  (hSelected : options.selectModels schema ≠ [])
include hLoad hResolved hSelected

/-- A run that succeeds brings the directories into line and takes its steps. -/
theorem Generator.generateSchema_align
    (h : generator.generateSchema directory path options workspace = (.ok report, last)) :
    ∃ passed changed made emitted, passed.tree = workspace.tree ∧
      Job.align directory schema.dirs passed = (.ok changed, made) ∧
      Job.take (options.steps directory schema)
        { models := (options.selectModels schema).map (·.1), removed := changed.removed } made =
          (.ok report, emitted) ∧
      last.tree = generator.formatted directory options emitted.tree := by
  obtain ⟨passed, hTree, hEmit⟩ := generator.generateSchema_emits directory hLoad hResolved hSelected
  rw [hEmit, emitModels_eq] at h
  rcases Job.bind_cases h with ⟨fault, -, hFault⟩ | ⟨changed, made, hAlign, hNext⟩
  · cases hFault
  obtain ⟨taken, emitted, hTake, hSame, hLast⟩ := finish_run hNext
  obtain rfl := Except.ok.inj hSame
  exact ⟨passed, changed, made, emitted, hTree, hAlign, hTake, hLast⟩

variable (hFormat : options.format = false)
include hFormat

/-- Where the directories can be brought into line and the steps be taken, a run does so. -/
theorem Generator.generateSchema_of_align (Goal : Report → FileTree → Prop)
    {start made : Workspace} {changed : Reconciliation} (hTree : start.tree = workspace.tree)
    (hAlign : Job.align directory schema.dirs start = (.ok changed, made))
    (hTake : ∀ aligned : Workspace, aligned.tree = made.tree → ∃ report emitted,
      Job.take (options.steps directory schema)
        { models := (options.selectModels schema).map (·.1), removed := changed.removed } aligned =
          (.ok report, emitted) ∧ Goal report emitted.tree) :
    ∃ report last, generator.generateSchema directory path options workspace =
      (.ok report, last) ∧ Goal report last.tree := by
  obtain ⟨passed, hPassed, hEmit⟩ := generator.generateSchema_emits directory hLoad hResolved hSelected
  obtain ⟨hResult, hMade⟩ :=
    Job.align_blind directory schema.dirs passed start (hPassed.trans hTree.symm)
  rcases hPassedAlign : Job.align directory schema.dirs passed with ⟨result, aligned⟩
  rw [hPassedAlign, hAlign] at hResult hMade
  obtain rfl : result = .ok changed := hResult
  obtain ⟨report, emitted, hTaken, hGoal⟩ := hTake aligned hMade
  obtain ⟨hFormatted, hLast⟩ := generator.format_run directory options emitted
  rw [formatted_of_not hFormat] at hLast
  rw [hEmit, emitModels_eq, Job.bind_run_ok hPassedAlign, Job.bind_run_ok hTaken]
  rcases hEnd : generator.format directory options emitted with ⟨outcome, after⟩
  rw [hEnd] at hFormatted hLast
  obtain rfl : outcome = .ok () := hFormatted
  rw [Job.bind_run_ok hEnd]
  refine ⟨report, after, rfl, ?_⟩
  rw [show after.tree = emitted.tree from hLast]
  exact hGoal

end

/-! ### Files of a schema -/

theorem Options.selectModels_ne_nil
    (h : ∃ name ∈ schema.models.map (·.1), options.includes name = true) :
    options.selectModels schema ≠ [] := by
  obtain ⟨name, hName, hAsked⟩ := h
  obtain ⟨model, hModel, rfl⟩ := List.mem_map.mp hName
  exact List.ne_nil_of_mem (mem_selectModels.mpr ⟨hModel, hAsked⟩)

theorem mem_modelFiles_iff {models : List (String × Model)} {file : Artifact × String} :
    file ∈ modelFiles directory models ↔ ∃ model ∈ models,
      file = (.ofModel directory .model model.1, TypeScript.modelText (.ofModel model.1 model.2)) ∨
      file = (.ofModel directory .transfer model.1,
        TypeScript.transferText (.ofModel model.1 model.2)) := by
  simp [modelFiles]

/-- Files of models with different stems are found at different places. -/
theorem modelFiles_place {models : List (String × Model)}
    (hStems : (models.map fun model => Naming.stem model.1).Nodup) :
    ∀ first ∈ modelFiles directory models, ∀ second ∈ modelFiles directory models,
      first.1.place location = second.1.place location → first = second := by
  intro first hFirst second hSecond hPlace
  obtain ⟨model, hModel, hFirst⟩ := mem_modelFiles_iff.mp hFirst
  obtain ⟨other, hOther, hSecond⟩ := mem_modelFiles_iff.mp hSecond
  obtain ⟨hStem, hKind⟩ := Artifact.of_place_eq hPlace
  have hStem : Naming.stem model.1 = Naming.stem other.1 := by
    rcases hFirst with rfl | rfl <;> rcases hSecond with rfl | rfl <;> exact hStem
  obtain rfl := List.inj_on_of_nodup_map hStems hModel hOther hStem
  rcases hFirst with rfl | rfl <;> rcases hSecond with rfl | rfl
  · rfl
  · cases hKind
  · cases hKind
  · rfl

theorem modelFiles_subset (options : Options) (schema : Schema) (directory : Path) :
    ∀ file ∈ modelFiles directory (options.selectModels schema),
      file ∈ modelFiles directory schema.models := by
  intro file hFile
  obtain ⟨model, hModel, hFile⟩ := mem_modelFiles_iff.mp hFile
  exact mem_modelFiles_iff.mpr ⟨model, (Options.mem_selectModels.mp hModel).1, hFile⟩

theorem Schema.belongsTo (hNames : ∀ model ∈ schema.models, isModelName model.1 = true) :
    ∀ file ∈ modelFiles directory schema.models, file.1.BelongsTo directory schema.dirs := by
  intro file hFile
  obtain ⟨name, model, kind, hModel, hArtifact⟩ := mem_modelFiles hFile
  have hStem : Naming.stem name ∈ schema.dirs :=
    mem_canonicalDirs.mpr ⟨name, List.mem_map.mpr ⟨_, hModel, rfl⟩, rfl⟩
  rw [hArtifact]
  exact Artifact.ofModel_belongsTo (hNames (name, model) hModel) hStem

theorem Schema.isSegment_dirs (hNames : ∀ model ∈ schema.models, isModelName model.1 = true) :
    ∀ name ∈ schema.dirs, IsSegment name := by
  intro name hName
  obtain ⟨_, hModel, rfl⟩ := mem_canonicalDirs.mp hName
  obtain ⟨model, hMember, rfl⟩ := List.mem_map.mp hModel
  exact Naming.isSegment_stem (hNames model hMember)

theorem Schema.dirs_ne_nil (h : options.selectModels schema ≠ []) : schema.dirs ≠ [] := by
  obtain ⟨model, hModel⟩ := List.exists_mem_of_ne_nil _ h
  have hMember := (Options.mem_selectModels.mp hModel).1
  have hStem : Naming.stem model.1 ∈ schema.dirs :=
    mem_canonicalDirs.mpr ⟨model.1, List.mem_map.mpr ⟨_, hMember, rfl⟩, rfl⟩
  exact List.ne_nil_of_mem hStem

/-! ### Steps of a run -/

namespace Options

/-- A run writes files of models of the schema. -/
theorem steps_subset (options : Options) (directory : Path) (schema : Schema) :
    ∀ write ∈ Step.writes (options.steps directory schema),
      write ∈ modelFiles directory schema.models := by
  rw [writes_steps]
  exact modelFiles_subset options schema directory

theorem steps_belong (options : Options) (directory : Path)
    (hNames : ∀ model ∈ schema.models, isModelName model.1 = true) :
    ∀ write ∈ Step.writes (options.steps directory schema), write.1.BelongsTo directory schema.dirs :=
  fun write hWrite => Schema.belongsTo hNames write (options.steps_subset directory schema write hWrite)

/-- A run writes no file twice. -/
theorem steps_nodup (options : Options) (directory : Path)
    (hLoad : (loadSchema path workspace).1 = .ok schema) :
    ((Step.writes (options.steps directory schema)).map (·.1)).Nodup := by
  rw [writes_steps]
  exact modelFiles_nodup (options.selectModels_names hLoad).1

/-- A run puts one file at a place, if models have different stems. -/
theorem steps_place (options : Options) (directory : Path) (location : Location)
    (hStems : (schema.models.map fun model => Naming.stem model.1).Nodup) :
    ∀ first ∈ Step.writes (options.steps directory schema),
      ∀ second ∈ Step.writes (options.steps directory schema),
        first.1.place location = second.1.place location → first = second :=
  fun first hFirst second hSecond =>
    modelFiles_place hStems first (options.steps_subset directory schema first hFirst) second
      (options.steps_subset directory schema second hSecond)

end Options

/-! ### What a run leaves -/

/-- A document with models of different stems is stored in a file tree, outside the directories in
the mappers directory, below which there are no links. -/
structure DocumentKind.Stored (kind : DocumentKind) (directory path : Path) (value : Yaml.Value)
    (names : List String) (tree : FileTree) : Prop where
  proper : tree.Proper
  document : DocumentAt tree path value
  models : kind.Models value names
  stems : (names.map Naming.stem).Nodup
  noLink : ∀ location, (tree.createDirAll directory).1.Leads directory location →
    tree.NoLinkBelow location
  outside : ∀ location place, (tree.createDirAll directory).1.Leads directory location →
    tree.locate path = .ok (.taken place) → ∀ name below, below ≠ [] →
      place ≠ location ++ name :: below

/-- A document stays where it is found at one place with one content. -/
theorem DocumentAt.transfer {before after : FileTree} {value : Yaml.Value}
    (h : DocumentAt before path value)
    (hKept : ∀ place content, before.locate path = .ok (.taken place) →
      before.node? place = some (.file content) →
        after.locate path = .ok (.taken place) ∧ after.node? place = some (.file content)) :
    DocumentAt after path value := by
  obtain ⟨text, hText, hValue⟩ := h
  obtain ⟨content, hContent, hUtf8⟩ := Files.FileTree.readText_eq_ok_iff.mp hText
  obtain ⟨place, hPlace, hNode⟩ := Files.FileTree.read_eq_ok_iff.mp hContent
  have hRead := Files.FileTree.read_eq_ok_iff.mpr ⟨place, hKept place content hPlace hNode⟩
  exact ⟨text, Files.FileTree.readText_eq_ok_iff.mpr ⟨content, hRead, hUtf8⟩, hValue⟩

theorem DocumentAt.locate {tree : FileTree} {value : Yaml.Value} (h : DocumentAt tree path value) :
    ∃ place, tree.locate path = .ok (.taken place) := by
  obtain ⟨text, hText, -⟩ := h
  obtain ⟨content, hContent, -⟩ := Files.FileTree.readText_eq_ok_iff.mp hText
  obtain ⟨place, hPlace, -⟩ := Files.FileTree.read_eq_ok_iff.mp hContent
  exact ⟨place, hPlace⟩

/-- What a run of a schema without a failure leaves: the mappers directory was brought into line, and
then the files of the models asked for were put at their places. -/
structure Settled (directory : Path) (location : Location) (schema : Schema) (options : Options)
    (removed : List String) (before made after : FileTree) : Prop where
  aligned : Aligned directory location schema.dirs removed (before.createDirAll directory).1 made
  noLink : (before.createDirAll directory).1.NoLinkBelow location
  laidOut : made.LaidOut directory location schema.dirs
  placed : made.Placed after location schema.dirs
    (modelFiles directory (options.selectModels schema))

variable {value : Yaml.Value} {names removed : List String} {before made after : FileTree}

/-- A run of a schema that passes the gate and succeeds brings the mappers directory into line and
takes its steps, if it is asked for a model and there are no links below the mappers directory. -/
theorem Generator.generateSchema_aligned (hProper : workspace.tree.Proper)
    (hLoad : (loadSchema path workspace).1 = .ok schema) (hResolved : schema.dangling? = none)
    (hLinks : ∀ location, (workspace.tree.createDirAll directory).1.Leads directory location →
      workspace.tree.NoLinkBelow location)
    (hSelected : options.selectModels schema ≠ [])
    (h : generator.generateSchema directory path options workspace = (.ok report, last)) :
    ∃ passed changed made emitted location, passed.tree = workspace.tree ∧
      Job.align directory schema.dirs passed = (.ok changed, made) ∧
      Aligned directory location schema.dirs changed.removed
        (workspace.tree.createDirAll directory).1 made.tree ∧
      (workspace.tree.createDirAll directory).1.NoLinkBelow location ∧
      made.tree.LaidOut directory location schema.dirs ∧
      Job.take (options.steps directory schema)
        { models := (options.selectModels schema).map (·.1), removed := changed.removed } made =
          (.ok report, emitted) ∧
      last.tree = generator.formatted directory options emitted.tree := by
  have hNames := (@Options.selectModels_names {} path workspace schema hLoad).2
  have hSegments := Schema.isSegment_dirs hNames
  obtain ⟨passed, changed, made, emitted, hTree, hAlign, hTake, hLast⟩ :=
    generateSchema_align hLoad hResolved hSelected h
  obtain ⟨location, hAligned⟩ := Job.align_aligned (hTree ▸ hProper)
    (fun name hName => (hSegments name hName).notEmpty) hAlign
  rw [hTree] at hAligned
  have hNoLink : (workspace.tree.createDirAll directory).1.NoLinkBelow location :=
    (hLinks location hAligned.leads).gains (workspace.tree.createDirAll_gains directory)
  exact ⟨passed, changed, made, emitted, location, hTree, hAlign, hAligned, hNoLink,
    hAligned.laidOut hNoLink hSegments (Schema.dirs_ne_nil hSelected), hTake, hLast⟩

/-- A run of a schema that passes the gate settles the file tree, if it is asked for a model and has
no failure, models have different stems, and there are no links below the mappers directory. -/
theorem Generator.generateSchema_settles (hProper : workspace.tree.Proper)
    (hLoad : (loadSchema path workspace).1 = .ok schema) (hResolved : schema.dangling? = none)
    (hStems : (schema.models.map fun model => Naming.stem model.1).Nodup)
    (hLinks : ∀ location, (workspace.tree.createDirAll directory).1.Leads directory location →
      workspace.tree.NoLinkBelow location)
    (hSelected : options.selectModels schema ≠ []) (hFormat : options.format = false)
    (h : generator.generateSchema directory path options workspace = (.ok report, last))
    (hFailures : report.failures = []) :
    ∃ passed changed made location, passed.tree = workspace.tree ∧
      Job.align directory schema.dirs passed = (.ok changed, made) ∧
      report.removed = changed.removed ∧
      Settled directory location schema options changed.removed workspace.tree made.tree last.tree := by
  have hNames := (@Options.selectModels_names {} path workspace schema hLoad).2
  obtain ⟨passed, changed, made, emitted, location, hTree, hAlign, hAligned, hNoLink, hLaid, hTake,
    hLast⟩ := generateSchema_aligned hProper hLoad hResolved hLinks hSelected h
  rw [formatted_of_not hFormat] at hLast
  have hPlaced := Job.take_places hLaid (options.steps_belong directory hNames)
    (fun first hFirst second hSecond hPlace => congrArg Prod.snd
      (options.steps_place directory location hStems first hFirst second hSecond hPlace))
    hTake hFailures
  rw [options.writes_steps, ← hLast] at hPlaced
  exact ⟨passed, changed, made, location, hTree, hAlign, Job.take_removed hTake, hAligned, hNoLink,
    hLaid, hPlaced⟩

section

variable
  (hStored : DocumentKind.schema.Stored directory path value (schema.models.map (·.1)) workspace.tree)
include hStored

theorem DocumentKind.Stored.isModelName (hRead : Schema.ofValue value = .ok schema) :
    ∀ model ∈ schema.models, isModelName model.1 = true :=
  have hLoad := loadSchema_ok_iff.mpr ⟨value, hStored.document, hRead⟩
  (@Options.selectModels_names {} path workspace schema hLoad).2

theorem DocumentKind.Stored.resolved (hRead : Schema.ofValue value = .ok schema) :
    schema.dangling? = none := by
  obtain ⟨other, hOther, hResolves, -⟩ := hStored.models
  obtain rfl := Except.ok.inj (hRead.symm.trans hOther)
  exact (Schema.dangling?_eq_none_iff hRead).mpr hResolves

theorem DocumentKind.Stored.stems_nodup :
    (schema.models.map fun model => Naming.stem model.1).Nodup := by
  simpa only [List.map_map, Function.comp_def] using hStored.stems

/-- A run that is asked for a model and has no failure settles the file tree. -/
theorem Generator.generateSchema_settled (hRead : Schema.ofValue value = .ok schema) (hSelected : options.selectModels schema ≠ [])
    (hFormat : options.format = false)
    (h : generator.generateSchema directory path options workspace = (.ok report, last))
    (hFailures : report.failures = []) :
    ∃ passed changed made location, passed.tree = workspace.tree ∧
      Job.align directory schema.dirs passed = (.ok changed, made) ∧
      report.removed = changed.removed ∧
      Settled directory location schema options changed.removed workspace.tree made.tree last.tree :=
  generateSchema_settles hStored.proper (loadSchema_ok_iff.mpr ⟨value, hStored.document, hRead⟩)
    (hStored.resolved hRead) hStored.stems_nodup hStored.noLink hSelected hFormat h hFailures

end

namespace Settled

variable (h : Settled directory location schema options removed before made after)
include h

theorem sameLinks : before.SameLinks after :=
  ((before.createDirAll_gains directory).grows.sameLinks.trans
    (h.aligned.sameLinks h.noLink)).trans h.placed.additions.grows.sameLinks

theorem workingDir : after.workingDir = before.workingDir :=
  h.placed.additions.grows.within.workingDir.trans
    (h.aligned.workingDir.trans (before.createDirAll_gains directory).workingDir)

theorem laidOut_after : after.LaidOut directory location schema.dirs :=
  h.laidOut.grows h.placed.additions.grows h.placed.proper

/-- The mappers directory leads afterwards where it led before. -/
theorem leads_after : (after.createDirAll directory).1.Leads directory location := by
  have hLeads := h.laidOut_after.anchored.leads
  rw [hLeads.createDirAll_eq_self]
  exact hLeads

/-- A file that was neither removed nor put at its place is as it was. -/
theorem file_iff {place : Location} {content : ByteArray}
    (hKept : ∀ name ∈ removed, ∀ below, place ≠ location ++ name :: below)
    (hFiles : ∀ file ∈ modelFiles directory (options.selectModels schema),
      place ≠ file.1.place location) :
    after.node? place = some (.file content) ↔ before.node? place = some (.file content) := by
  have hNotLost : DocumentKind.schema.loses location removed place = false := by
    refine Bool.eq_false_iff.mpr fun hLost => ?_
    obtain ⟨name, hName, below, hPlace⟩ := DocumentKind.loses_schema.mp hLost
    exact hKept name hName below hPlace
  rw [h.placed.others place hFiles, ← (before.createDirAll_gains directory).file_iff]
  rcases h.aligned.node_eq_or_new hNotLost with hSame | ⟨hNone, hNew⟩
  · rw [hSame]
  · simp [hNone, hNew]

/-- The files of a model that was not asked for are as they were. -/
theorem unselected_iff (hStems : (schema.models.map fun model => Naming.stem model.1).Nodup)
    {model : String × Model} (hModel : model ∈ schema.models)
    (hUnasked : options.includes model.1 = false) (kind : ArtifactKind) (content : ByteArray) :
    after.node? ((Artifact.ofModel directory kind model.1).place location) = some (.file content) ↔
      before.node? ((Artifact.ofModel directory kind model.1).place location) =
        some (.file content) := by
  refine h.file_iff (fun name hName below hPlace => ?_) fun file hFile hPlace => ?_
  · obtain ⟨rfl, -⟩ := List.cons.inj (List.append_cancel_left hPlace)
    refine ((h.aligned.stale _).mp hName).gone (mem_canonicalDirs.mpr ⟨model.1, ?_, rfl⟩)
    exact List.mem_map_of_mem hModel
  · obtain ⟨other, hOther, hFile⟩ := mem_modelFiles_iff.mp hFile
    obtain ⟨hMember, hAsked⟩ := Options.mem_selectModels.mp hOther
    have hStem : Naming.stem model.1 = Naming.stem other.1 := by
      have hNames := (List.cons.inj (List.append_cancel_left hPlace)).1
      rcases hFile with rfl | rfl <;> exact hNames
    obtain rfl := List.inj_on_of_nodup_map hStems hModel hMember hStem
    rw [hUnasked] at hAsked
    cases hAsked

/-- If the path of the document leads to something afterwards, then to the document as it was, and it
is stored as before. -/
theorem stored (hStored : DocumentKind.schema.Stored directory path value names before)
    (hFound : ∃ other, after.locate path = .ok (.taken other)) :
    DocumentKind.schema.Stored directory path value names after := by
  obtain ⟨other, hOther⟩ := hFound
  refine ⟨h.placed.proper, hStored.document.transfer fun place content hPlace hNode => ?_,
    hStored.models, hStored.stems, fun around hLeads => ?_, fun around place hLeads hPlace => ?_⟩
  · obtain rfl := Files.FileTree.locate_same_place h.sameLinks h.workingDir hPlace hOther
    have hOutside := hStored.outside location place h.aligned.leads hPlace
    refine ⟨hOther, (h.file_iff (fun name hName below hAt => ?_) fun file hFile hAt => ?_).mpr hNode⟩
    · rcases below with _ | ⟨next, below⟩
      · -- A stale directory is a directory.
        have hStale := ((h.aligned.stale name).mp hName).found
        rw [← hAt, (before.createDirAll_gains directory).kept hNode] at hStale
        cases hStale
      · exact hOutside name (next :: below) (by simp) hAt
    · exact hOutside _ _ (by simp) hAt
  · rw [← h.leads_after.unique hLeads]
    exact h.laidOut_after.anchored.noLink
  · obtain ⟨first, hFirst⟩ := hStored.document.locate
    obtain rfl := Files.FileTree.locate_same_place h.sameLinks h.workingDir hFirst hPlace
    rw [← h.leads_after.unique hLeads]
    exact hStored.outside location first h.aligned.leads hFirst

end Settled

theorem Files.FileTree.Proper.noLinkBelow {tree : FileTree} (hProper : tree.Proper)
    (hPlain : ∀ entry ∈ tree.entries, ∀ target, entry.2 ≠ .link target) (location : Location) :
    tree.NoLinkBelow location :=
  fun _ target hBelow hLink =>
    hPlain _ ((hProper.node?_eq_some_iff (by simp [hBelow])).mp hLink) target rfl

/-- A document in a file tree without links is stored, if it is not in the mappers directory. -/
theorem DocumentKind.Stored.of_plain {kind : DocumentKind} {tree : FileTree} {place : Location}
    (hProper : tree.Proper) (hPlain : ∀ entry ∈ tree.entries, ∀ target, entry.2 ≠ .link target)
    (hDocument : DocumentAt tree path value) (hModels : kind.Models value names)
    (hStems : (names.map Naming.stem).Nodup)
    (hLeads : (tree.createDirAll directory).1.Leads directory location)
    (hPlace : tree.locate path = .ok (.taken place)) (hOutside : ¬ location <+: place) :
    kind.Stored directory path value names tree where
  proper := hProper
  document := hDocument
  models := hModels
  stems := hStems
  noLink := fun other _ => hProper.noLinkBelow hPlain other
  outside := fun other found hOther hFound name below _ hInside => by
    obtain rfl := hLeads.unique hOther
    rw [hPlace] at hFound
    cases hFound
    exact hOutside (hInside ▸ List.prefix_append _ _)

theorem DocumentKind.schema_models_of_load
    (h : ((loadSchema path workspace).1.toOption.any fun schema =>
      schema.dangling?.isNone && schema.models.map (·.1) == names) = true) :
    ∃ value, DocumentAt workspace.tree path value ∧ DocumentKind.schema.Models value names := by
  rcases hLoad : (loadSchema path workspace).1 with fault | schema
  · simp [hLoad, Except.toOption] at h
  simp only [hLoad, Except.toOption, Option.any_some, Bool.and_eq_true, Option.isNone_iff_eq_none,
    beq_iff_eq] at h
  obtain ⟨value, hDocument, hRead⟩ := loadSchema_ok_iff.mp hLoad
  exact ⟨value, hDocument, schema, hRead, (Schema.dangling?_eq_none_iff hRead).mp h.1, h.2.symm⟩

/-- A workspace with a schema of two models, and what other runs left in the mappers directory: a
directory of a model that is gone, and a file with an old text. -/
def leftovers : Workspace where
  tree :=
    { entries := [(["schema.tw"], .file (String.toUTF8 "Post:\n  type: model\nUser:\n  type: model\n")),
        (["m"], .directory), (["m", "old"], .directory),
        (["m", "old", "old.dto.ts"], .file (String.toUTF8 "export {}")),
        (["m", "user"], .directory),
        (["m", "user", "user.model.ts"], .file (String.toUTF8 "export {}"))] }

theorem leftovers_stored :
    ∃ value, DocumentKind.schema.Stored "m" "schema.tw" value ["Post", "User"] leftovers.tree := by
  obtain ⟨value, hDocument, hModels⟩ := @DocumentKind.schema_models_of_load "schema.tw" leftovers
    ["Post", "User"] (by decide +kernel)
  have hStart : (leftovers.tree.createDirAll "m").1.Leads "m" ["m"] := ⟨by rfl, by rfl⟩
  have hPlace : leftovers.tree.locate "schema.tw" = .ok (.taken ["schema.tw"]) := by rfl
  exact ⟨value, .of_plain (by decide +kernel) (by simp [leftovers]) hDocument hModels
    (by decide +kernel) hStart hPlace (by decide)⟩

end EntityGen
