import EntityGen.Proofs.Generation.Containment
import EntityGen.Proofs.Generation.SchemaRuns

/-! A run after a run without a failure. It finds nothing stale and every directory and file in
place, and so it changes nothing. For a schema the paths of the mappers directory and of the document
must not pass what the first run removed: a directory on the way that is removed as stale is created
again with those of the models. -/

namespace EntityGen

open Files (FileTree Location Path)

variable {generator : Generator} {kind : DocumentKind} {directory path : Path} {options : Options}
  {workspace last : Workspace} {location : Location} {canonical names : List String}
  {value : Yaml.Value} {report : Report}

/-! ### Jobs that have nothing to do -/

namespace Job

theorem createDirAll_idle {blame : Files.FileFault → Fault}
    (h : workspace.tree.Leads directory location) :
    createDirAll blame directory workspace = (.ok (), workspace) := by
  rw [createDirAll_run, h.createDirAll_eq_self]

/-- The mappers directory can be listed, and what is stale in it is known. -/
theorem existingModelDirs_found (canonical : List String) (hProper : workspace.tree.Proper)
    (hLeads : workspace.tree.Leads directory location) :
    ∃ names, existingModelDirs directory workspace = (.ok names, workspace) ∧
      ∀ name, name ∈ names.filter (fun name => !canonical.contains name) ↔
        workspace.tree.IsStale location canonical name := by
  refine ⟨modelDirs (workspace.tree.children location), ?_, fun name => FileTree.mem_stale hProper⟩
  have hList := FileTree.list_ok_iff.mpr ⟨location, hLeads, rfl⟩
  rw [existingModelDirs, bind_run_ok (tree_run workspace), hList]
  rfl

theorem createModelDirs_idle
    (h : ∀ name ∈ names, workspace.tree.hasDirectory (Path.join directory name) = true) :
    createModelDirs directory names workspace = (.ok [], workspace) := by
  induction names with
  | nil => rfl
  | cons name rest ih =>
    rw [List.forall_mem_cons] at h
    rw [createModelDirs, bind_run_ok (tree_run workspace), if_pos h.1]
    exact ih h.2

theorem reconcile_idle (hLaid : workspace.tree.LaidOut directory location canonical)
    (hNone : ∀ name, ¬ workspace.tree.IsStale location canonical name) :
    reconcile directory canonical workspace = (.ok {}, workspace) := by
  obtain ⟨names, hList, hStale⟩ :=
    existingModelDirs_found canonical hLaid.anchored.proper hLaid.anchored.leads
  have hNothing : names.filter (fun name => !canonical.contains name) = [] :=
    List.eq_nil_iff_forall_not_mem.mpr fun name hName => hNone name ((hStale name).mp hName)
  have hDirs : createModelDirs directory canonical workspace = (.ok [], workspace) :=
    createModelDirs_idle fun name hName =>
      FileTree.hasDirectory_eq_true_iff.mpr ⟨_, hLaid.dirs name hName⟩
  have hRemove : removeModelDirs directory [] workspace = (.ok (), workspace) := rfl
  rw [reconcile, bind_run_ok hList, hNothing, bind_run_ok hRemove, bind_run_ok hDirs]
  rfl

theorem removeFiles_idle {fileName : String → String}
    (h : ∀ name ∈ names, workspace.tree.hasFile
      (Path.join (Path.join directory name) (fileName name)) = false) :
    removeFiles directory fileName names workspace = (.ok [], workspace) := by
  induction names with
  | nil => rfl
  | cons name rest ih =>
    rw [List.forall_mem_cons] at h
    rw [removeFiles, bind_run_ok (tree_run workspace), if_neg (by simp [h.1])]
    exact ih h.2

theorem removeStale_idle (hAnchored : workspace.tree.Anchored directory location)
    (hReach : ∀ name, DocumentKind.forms.Lingers location canonical workspace.tree name →
      DocumentKind.forms.OutOfReach directory name) :
    removeStale directory canonical ArtifactKind.ruleset.fileName workspace =
      (.ok [], workspace) := by
  obtain ⟨names, hList, hStale⟩ :=
    existingModelDirs_found canonical hAnchored.proper hAnchored.leads
  rw [removeStale, bind_run_ok hList]
  refine removeFiles_idle fun name hName => ?_
  have hOwn := (hStale name).mp hName
  rw [Bool.eq_false_iff, ne_eq, DocumentKind.hasFile_ruleset_iff hAnchored hOwn.found]
  exact fun ⟨hNear, hFile⟩ => hNear (hReach name ⟨hOwn, fun _ => hFile⟩)

end Job

/-- Files that have their texts are found unchanged. -/
theorem Generator.finish_unchanged (generator : Generator) {steps : List Step} (initial : Report)
    (hFormat : options.format = false)
    (hFiles : ∀ write ∈ Step.writes steps,
      workspace.tree.read write.1.path = .ok write.2.toUTF8) :
    ∃ last, (do
      let report ← Job.take steps initial
      generator.format directory options
      return report : Job Report) workspace = (.ok { initial with
        unchanged := initial.unchanged ++ (Step.writes steps).map (·.1) }, last) ∧
      last.tree = workspace.tree := by
  obtain ⟨taken, hTake, hTree⟩ := Job.take_unchanged initial hFiles
  obtain ⟨hFormatted, hLast⟩ := generator.format_run directory options taken
  rcases hEnd : generator.format directory options taken with ⟨outcome, last⟩
  rw [hEnd] at hFormatted hLast
  obtain rfl : outcome = .ok () := hFormatted
  rw [Job.bind_run_ok hTake, Job.bind_run_ok hEnd]
  exact ⟨last, rfl, hLast.trans ((formatted_of_not hFormat _).trans hTree)⟩

/-- The files that a run of a kind generates for models, in order. -/
def DocumentKind.outputs (kind : DocumentKind) (directory : Path) (names : List String) :
    List Artifact :=
  names.flatMap fun name => kind.artifacts.map fun artifact => .ofModel directory artifact name

/-! ### Schemas -/

theorem modelFiles_outputs (models : List (String × Model)) :
    (modelFiles directory models).map (·.1) =
      DocumentKind.schema.outputs directory (models.map (·.1)) := by
  simp [modelFiles, DocumentKind.outputs, DocumentKind.artifacts, List.map_flatMap,
    List.flatMap_map]

theorem Options.selectModels_fst (options : Options) (schema : Schema) :
    (options.selectModels schema).map (·.1) = (schema.models.map (·.1)).filter options.includes := by
  rw [selectModels, List.filter_map]
  rfl

/-- What is stale after a run of a schema was not in line after its directories were. -/
theorem Settled.not_stale {schema : Schema} {removed : List String} {before made after : FileTree}
    (h : Settled directory location schema options removed before made after)
    (hSegments : ∀ name ∈ schema.dirs, Files.IsSegment name)
    (hLeads : ((before.createDirAll directory).1.without
      (DocumentKind.schema.loses location removed)).Leads directory location) (name : String) :
    ¬ after.IsStale location schema.dirs name := by
  intro hStale
  have hSame := h.placed.additions.outside hStale.gone []
  have hMade : ¬ made.IsStale location schema.dirs name :=
    h.aligned.nothing_stale h.noLink.noLinkIn hSegments hLeads
  exact hMade ⟨hSame ▸ hStale.found, hStale.ofModel, hStale.gone⟩

/-- A run of a schema after one finds everything done. -/
theorem Generator.generateSchema_again
    (hStored : DocumentKind.schema.Stored directory path value names workspace.tree)
    (hFormat : options.format = false) (hSome : ∃ name ∈ names, options.includes name = true)
    (hRun : generator.generateSchema directory path options workspace = (.ok report, last))
    (hFailures : report.failures = [])
    (hPaths : ∀ location place, (workspace.tree.createDirAll directory).1.Leads directory location →
      workspace.tree.locate path = .ok (.taken place) →
      let left := (workspace.tree.createDirAll directory).1.without
        (DocumentKind.schema.loses location report.removed)
      left.Leads directory location ∧ left.locate path = .ok (.taken place)) :
    ∃ again, generator.generateSchema directory path options last = (.ok {
        models := names.filter options.includes
        unchanged := DocumentKind.schema.outputs directory (names.filter options.includes) }, again) ∧
      again.tree = last.tree := by
  obtain ⟨schema, hRead, -, rfl⟩ := hStored.models
  have hSelected := Options.selectModels_ne_nil hSome
  obtain ⟨_, changed, made, location, -, -, hRemoved, hSettled⟩ :=
    generateSchema_settled hStored hRead hSelected hFormat hRun hFailures
  obtain ⟨place, hPlace⟩ := hStored.document.locate
  obtain ⟨hLeads, hLocate⟩ := hPaths location place hSettled.aligned.leads hPlace
  rw [hRemoved] at hLeads hLocate
  have hFound : last.tree.locate path = .ok (.taken place) :=
    hSettled.placed.additions.grows.within.locate (hSettled.aligned.gains.grows.within.locate hLocate)
  have hAfter := hSettled.stored hStored ⟨place, hFound⟩
  have hSegments := Schema.isSegment_dirs (hStored.isModelName hRead)
  have hNone := hSettled.not_stale hSegments hLeads
  have hLoad := loadSchema_ok_iff.mpr ⟨value, hAfter.document, hRead⟩
  obtain ⟨passed, kept, hEmit⟩ :=
    generator.generateSchema_emits directory hLoad (hStored.resolved hRead) hSelected
  have hLaid := hSettled.laidOut_after
  rw [← kept] at hLaid hNone ⊢
  have hWrites := options.writes_steps directory schema
  have hFiles : ∀ write ∈ Step.writes (options.steps directory schema),
      passed.tree.read write.1.path = .ok write.2.toUTF8 := by
    intro write hWrite
    obtain ⟨hNode, hAt⟩ := hSettled.placed.holds write (hWrites ▸ hWrite)
    rw [kept]
    exact FileTree.read_eq_ok_iff.mpr ⟨_, hAt, hNode⟩
  obtain ⟨again, hFinish, hTree⟩ := generator.finish_unchanged
    { models := (options.selectModels schema).map (·.1) } hFormat hFiles
  rw [hWrites, modelFiles_outputs] at hFinish
  refine ⟨again, ?_, hTree⟩
  rw [hEmit, emitModels, Job.bind_run_ok (Job.createDirAll_idle hLaid.anchored.leads),
    Job.bind_run_ok (Job.reconcile_idle hLaid hNone), ← Options.selectModels_fst]
  exact hFinish

/-! ### Forms -/

variable {forms : Forms}

theorem formFiles_outputs (imports : TypeScript.ImportPaths) (models : List (String × FormModel)) :
    (formFiles imports directory models).map (·.1) =
      DocumentKind.forms.outputs directory (models.map (·.1)) := by
  simp only [formFiles, DocumentKind.outputs, DocumentKind.artifacts, List.map_map,
    Function.comp_def, List.flatMap_map, List.map_cons, List.map_nil]
  exact List.map_eq_flatMap

theorem Options.selectForms_fst (options : Options) (forms : Forms) :
    (options.selectForms forms).map (·.1) = (forms.models.map (·.1)).filter options.includes := by
  rw [selectForms, List.filter_map]
  rfl

/-- A run of forms gets to the files, if it is asked for a model. -/
theorem Generator.generateForms_emits (generator : Generator) (directory : Path)
    (hLoad : (loadForms path workspace).1 = .ok forms) (hSelected : options.selectForms forms ≠ []) :
    ∃ passed, passed.tree = workspace.tree ∧
      generator.generateForms directory path options workspace =
        generator.emitRulesets directory options forms (options.selectForms forms) passed := by
  have hWay := generator.formsRun directory path options workspace
  generalize generator.generateForms directory path options workspace = run at hWay
  cases hWay with
  | unloaded load => simp [hLoad] at load
  | @unselected read _ load unselected =>
    obtain rfl : forms = read := by simpa [hLoad] using load
    exact absurd unselected hSelected
  | @emitted read passed load _ kept =>
    obtain rfl : forms = read := by simpa [hLoad] using load
    exact ⟨passed, kept, rfl⟩

/-- The steps of a run of forms that is asked for some models. -/
abbrev Options.formSteps (options : Options) (imports : TypeScript.ImportPaths) (directory : Path)
    (forms : Forms) : List Step :=
  (options.selectForms forms).flatMap fun model => Step.ofForm imports directory model.1 model.2

theorem Options.writes_formSteps (options : Options) (imports : TypeScript.ImportPaths)
    (directory : Path) (forms : Forms) :
    Step.writes (options.formSteps imports directory forms) =
      formFiles imports directory (options.selectForms forms) :=
  Step.writes_ofForms imports directory (options.selectForms forms)

theorem Forms.files_nodup (hRead : Forms.ofValue value = .ok forms)
    (imports : TypeScript.ImportPaths) (directory : Path) (options : Options) :
    ((formFiles imports directory (options.selectForms forms)).map (·.1)).Nodup :=
  formFiles_nodup ((Forms.ofValue_nodup hRead).sublist (List.filter_sublist.map _))

theorem Forms.belongsTo (hRead : Forms.ofValue value = .ok forms) (imports : TypeScript.ImportPaths)
    (directory : Path) (options : Options) :
    ∀ write ∈ Step.writes (options.formSteps imports directory forms),
      write.1.BelongsTo directory (canonicalDirs (forms.models.map (·.1))) := by
  intro write hWrite
  rw [Options.writes_formSteps] at hWrite
  obtain ⟨model, hModel, rfl⟩ := List.mem_map.mp hWrite
  have hMember := List.mem_of_mem_filter hModel
  exact Artifact.ofModel_belongsTo (Forms.isModelName_of_mem_models hRead model hMember)
    (mem_canonicalDirs.mpr ⟨model.1, List.mem_map_of_mem hMember, rfl⟩)

section

variable {imports : TypeScript.ImportPaths} {initial : Report} {cleared emitted : Workspace}

/-- What is not in the directories inside the mappers directory stays when rulesets are written. -/
theorem Forms.rulesets_keep (hRead : Forms.ofValue value = .ok forms)
    (hAnchored : emitted.tree.Anchored directory location)
    (hTake : Job.take (options.formSteps imports directory forms) initial cleared =
      (.ok report, emitted)) (hInitial : initial.failures = [])
    {place : Location} {content : ByteArray}
    (hPlace : cleared.tree.locate path = .ok (.taken place))
    (hNode : cleared.tree.node? place = some (.file content))
    (hOutside : ∀ name below, below ≠ [] → place ≠ location ++ name :: below) :
    emitted.tree.locate path = .ok (.taken place) ∧
      emitted.tree.node? place = some (.file content) := by
  have hNodup := Forms.files_nodup hRead imports directory options
  rw [← Options.writes_formSteps] at hNodup
  refine ⟨(Job.take_grows hTake).within.locate hPlace, ?_⟩
  refine (Job.take_file_iff hTake hNodup (by simp [Report.Settles, hInitial]) place content).mpr
    (.inr ⟨fun write hWrite hPlaces => ?_, hNode⟩)
  rw [Options.writes_formSteps] at hWrite
  obtain ⟨⟨name, model⟩, hModel, rfl⟩ := List.mem_map.mp hWrite
  have hName := Forms.isModelName_of_mem_models hRead _ (List.mem_of_mem_filter hModel)
  have hAt := hPlaces.2
  simp only [Artifact.ofModel_path] at hAt
  exact hOutside _ _ (by simp) (FileTree.locate_artifactPath hName hAnchored.leads.notEmpty
    hAnchored.leads.locate hAnchored.noLink hAt)

variable
  (hStored : DocumentKind.forms.Stored directory path value (forms.models.map (·.1)) workspace.tree)
include hStored

/-- Rulesets of selected models that are found at one place have one text. -/
theorem DocumentKind.Stored.ruleset_text {tree : FileTree}
    (hRead : Forms.ofValue value = .ok forms) (hAnchored : tree.Anchored directory location)
    {first second : Artifact × String}
    (hFirst : first ∈ formFiles imports directory (options.selectForms forms))
    (hSecond : second ∈ formFiles imports directory (options.selectForms forms))
    (hPlace : ∃ place, tree.locate first.1.path = .ok (.taken place))
    (hSame : tree.locate first.1.path = tree.locate second.1.path) : first.2 = second.2 := by
  have hNames := Forms.isModelName_of_mem_models hRead
  obtain ⟨⟨name, model⟩, hModel, rfl⟩ := List.mem_map.mp hFirst
  obtain ⟨⟨other, form⟩, hOther, rfl⟩ := List.mem_map.mp hSecond
  have hModel := List.mem_of_mem_filter hModel
  have hOther := List.mem_of_mem_filter hOther
  simp only [Artifact.ofModel_path] at hPlace hSame
  obtain ⟨place, hPlace⟩ := hPlace
  have hStem := ((FileTree.locate_artifactPath_eq_iff (hNames _ hModel) (hNames _ hOther)
    hAnchored.leads.notEmpty hAnchored.leads.locate hAnchored.noLink hPlace
    (hSame ▸ hPlace)).mp hSame).1
  have hStems : (forms.models.map fun model => Naming.stem model.1).Nodup := by
    simpa only [List.map_map, Function.comp_def] using hStored.stems
  obtain ⟨rfl, rfl⟩ := Prod.mk.inj (List.inj_on_of_nodup_map hStems hModel hOther hStem)
  rfl

/-- After a run without failures each ruleset has its text. -/
theorem DocumentKind.Stored.rulesets_hold (hRead : Forms.ofValue value = .ok forms)
    (hAnchored : emitted.tree.Anchored directory location)
    (hTake : Job.take (options.formSteps imports directory forms) initial cleared =
      (.ok report, emitted))
    (hInitial : initial.failures = []) (hFailures : report.failures = []) :
    ∀ file ∈ formFiles imports directory (options.selectForms forms),
      emitted.tree.read file.1.path = .ok file.2.toUTF8 := by
  have hNodup := Forms.files_nodup hRead imports directory options
  rw [← Options.writes_formSteps] at hNodup ⊢
  refine (Job.take_holds_iff hTake hNodup hInitial hFailures).mpr
    fun first hFirst second hSecond hSame => ?_
  have hSettles := Job.take_settles hTake first hFirst
  simp only [hFailures, List.not_mem_nil, exists_false, false_or] at hSettles
  obtain ⟨place, _, hPlace, -⟩ := hSettles
  rw [Options.writes_formSteps] at hFirst hSecond
  exact hStored.ruleset_text hRead hAnchored hFirst hSecond ⟨place, hPlace⟩ hSame

end

/-- What a run of forms leaves: rulesets were removed that it could reach, and then those of the
models asked for were written. -/
structure Refilled (directory path : Path) (location : Location) (canonical : List String)
    (files : List (Artifact × String)) (before after : FileTree) : Prop where
  leads : (before.createDirAll directory).1.Leads directory location
  anchored : after.Anchored directory location
  lingering : ∀ name, DocumentKind.forms.Lingers location canonical after name →
    DocumentKind.forms.OutOfReach directory name
  holds : ∀ file ∈ files, after.read file.1.path = .ok file.2.toUTF8
  keeps : ∀ place content, before.locate path = .ok (.taken place) →
    before.node? place = some (.file content) →
      (∀ name below, below ≠ [] → place ≠ location ++ name :: below) →
        after.locate path = .ok (.taken place) ∧ after.node? place = some (.file content)

/-- A run of forms that succeeds creates the mappers directory, removes the rulesets that the forms no
longer have and takes its steps, if it is asked for a model and there are no links below the mappers
directory. -/
theorem Generator.generateForms_prepared (hProper : workspace.tree.Proper)
    (hLoad : (loadForms path workspace).1 = .ok forms)
    (hLinks : ∀ location, (workspace.tree.createDirAll directory).1.Leads directory location →
      workspace.tree.NoLinkBelow location)
    (hSelected : options.selectForms forms ≠ [])
    (h : generator.generateForms directory path options workspace = (.ok report, last)) :
    ∃ passed start removed cleared emitted location, passed.tree = workspace.tree ∧
      Job.createDirAll (.unwritten directory) directory passed = (.ok (), start) ∧
      start.tree.Anchored directory location ∧
      Job.removeStale directory (canonicalDirs (forms.models.map (·.1)))
        ArtifactKind.ruleset.fileName start = (.ok removed, cleared) ∧
      Job.take (options.formSteps generator.imports directory forms)
        { models := (options.selectForms forms).map (·.1), removed } cleared =
          (.ok report, emitted) ∧
      last.tree = generator.formatted directory options emitted.tree := by
  obtain ⟨passed, hTree, hEmit⟩ := generator.generateForms_emits directory hLoad hSelected
  rw [hEmit] at h
  rcases Job.bind_cases h with ⟨fault, -, hFault⟩ | ⟨_, start, hCreate, hNext⟩
  · cases hFault
  have hStart := Job.createDirAll_cases hCreate
  rw [hTree] at hStart
  rcases Job.bind_cases hNext with ⟨fault, -, hFault⟩ | ⟨removed, cleared, hClear, hFinish⟩
  · cases hFault
  obtain ⟨taken, emitted, hTake, hSame, hLast⟩ := finish_run hFinish
  obtain rfl := Except.ok.inj hSame
  have hStartProper : start.tree.Proper := hStart ▸ FileTree.createDirAll_proper hProper directory
  have hRemoved := Job.removeStale_run hStartProper hClear
  rw [hStart] at hRemoved
  cases hRemoved with
  | @done _ _ location leads =>
  have hAnchored : start.tree.Anchored directory location :=
    ⟨hStartProper, hStart ▸ leads,
      hStart ▸ (hLinks location leads).gains (workspace.tree.createDirAll_gains directory)⟩
  exact ⟨passed, start, removed, cleared, emitted, location, hTree, hCreate, hAnchored, hClear,
    hTake, hLast⟩

theorem Generator.generateForms_cleared (hProper : workspace.tree.Proper)
    (hLoad : (loadForms path workspace).1 = .ok forms)
    (hLinks : ∀ location, (workspace.tree.createDirAll directory).1.Leads directory location →
      workspace.tree.NoLinkBelow location)
    (hSelected : options.selectForms forms ≠ [])
    (h : generator.generateForms directory path options workspace = (.ok report, last)) :
    ∃ start removed cleared emitted location,
      start.tree = (workspace.tree.createDirAll directory).1 ∧
      start.tree.Anchored directory location ∧
      Job.removeStale directory (canonicalDirs (forms.models.map (·.1)))
        ArtifactKind.ruleset.fileName start = (.ok removed, cleared) ∧
      Job.take (options.formSteps generator.imports directory forms)
        { models := (options.selectForms forms).map (·.1), removed } cleared =
          (.ok report, emitted) ∧
      last.tree = generator.formatted directory options emitted.tree := by
  obtain ⟨passed, start, removed, cleared, emitted, location, hTree, hCreate, hRun⟩ :=
    generateForms_prepared hProper hLoad hLinks hSelected h
  exact ⟨start, removed, cleared, emitted, location, hTree ▸ Job.createDirAll_cases hCreate, hRun⟩

theorem Generator.generateForms_refilled
    (hStored : DocumentKind.forms.Stored directory path value (forms.models.map (·.1))
      workspace.tree)
    (hRead : Forms.ofValue value = .ok forms) (hSelected : options.selectForms forms ≠ [])
    (hFormat : options.format = false)
    (h : generator.generateForms directory path options workspace = (.ok report, last))
    (hFailures : report.failures = []) :
    ∃ location, Refilled directory path location (canonicalDirs (forms.models.map (·.1)))
      (formFiles generator.imports directory (options.selectForms forms)) workspace.tree
      last.tree := by
  have hLoad := loadForms_ok_iff.mpr ⟨value, hStored.document, hRead⟩
  obtain ⟨start, removed, cleared, emitted, location, hStart, hAnchored, hClear, hTake, hLast⟩ :=
    generateForms_cleared hStored.proper hLoad hStored.noLink hSelected h
  rw [formatted_of_not hFormat] at hLast
  rw [hLast]
  have hRemoved := Job.removeStale_run hAnchored.proper hClear
  have hLeads := hAnchored.leads
  rw [hStart] at hRemoved hLeads
  cases hRemoved with
  | @done _ _ other leads stale _ gains =>
  obtain rfl := hLeads.unique leads
  obtain ⟨hCleared, hSheds, hTaken⟩ := Job.removeStale_clears hAnchored hClear
  have hBelongs := Forms.belongsTo hRead generator.imports directory options
  have hFills : FileTree.Fills directory location (canonicalDirs (forms.models.map (·.1)))
      cleared.tree emitted.tree :=
    Job.take_fills (fun write hWrite => (hBelongs write hWrite).eq_ofModel) hTake
  have hAfter := hFills.anchored hCleared
  refine ⟨location, leads, hAfter, fun name hLingers => ((hTaken removed rfl).lingers_iff.mp
      ((DocumentKind.Lingers.fills_iff hCleared hFills).mp hLingers)).2,
    hStored.rulesets_hold hRead hAfter hTake rfl hFailures, ?_⟩
  intro place content hPlace hNode hOutside
  have hGains := workspace.tree.createDirAll_gains directory
  have hStartNode : start.tree.node? place = some (.file content) := hStart ▸ hGains.kept hNode
  have hKept : DocumentKind.forms.loses location removed place = false := by
    rw [DocumentKind.loses, List.any_eq_false]
    intro name _
    simpa using hOutside name [ArtifactKind.ruleset.fileName name] (by simp)
  have hClearedNode : cleared.tree.node? place = some (.file content) := by
    refine gains.kept ?_
    rw [FileTree.node?_without (DocumentKind.loses_root _), hKept]
    exact hGains.kept hNode
  have hClearedPlace := hSheds.locate (hStart ▸ hGains.grows.within.locate hPlace)
    (hClearedNode.trans hStartNode.symm)
  exact Forms.rulesets_keep hRead hAfter hTake rfl hClearedPlace hClearedNode hOutside

section

variable (generator : Generator) (hAnchored : workspace.tree.Anchored directory location)
  (hReach : ∀ name, DocumentKind.forms.Lingers location (canonicalDirs (forms.models.map (·.1)))
    workspace.tree name → DocumentKind.forms.OutOfReach directory name)
  (hLoad : (loadForms path workspace).1 = .ok forms) (hSelected : options.selectForms forms ≠ [])
include hAnchored hReach hLoad hSelected

/-- A run of forms where the mappers directory is there, and nothing in it lingers that is in reach,
takes its steps and formats. -/
theorem Generator.generateForms_idle : ∃ passed, passed.tree = workspace.tree ∧
    generator.generateForms directory path options workspace = (do
      let report ← Job.take (options.formSteps generator.imports directory forms)
        { models := (options.selectForms forms).map (·.1) }
      generator.format directory options
      return report : Job Report) passed := by
  obtain ⟨passed, hTree, hEmit⟩ := generator.generateForms_emits directory hLoad hSelected
  rw [← hTree] at hAnchored hReach
  refine ⟨passed, hTree, ?_⟩
  rw [hEmit, emitRulesets, Job.bind_run_ok (Job.createDirAll_idle hAnchored.leads),
    Job.bind_run_ok (Job.removeStale_idle hAnchored hReach)]

/-- Such a run succeeds, and it ends with the formatter. -/
theorem Generator.generateForms_formats : ∃ report emitted,
    generator.generateForms directory path options workspace =
      (.ok report, (generator.format directory options emitted).2) := by
  obtain ⟨passed, -, hRun⟩ := generator.generateForms_idle hAnchored hReach hLoad hSelected
  rw [hRun]
  generalize options.formSteps generator.imports directory forms = steps
  generalize ({ models := (options.selectForms forms).map (·.1) } : Report) = initial
  obtain ⟨report, hOk⟩ := Job.take_ok steps initial passed
  rcases hTake : Job.take steps initial passed with ⟨outcome, emitted⟩
  obtain rfl : outcome = .ok report := by simpa [hTake] using hOk
  obtain ⟨hFormatted, -⟩ := generator.format_run directory options emitted
  rcases hEnd : generator.format directory options emitted with ⟨outcome, last⟩
  obtain rfl : outcome = .ok () := by simpa [hEnd] using hFormatted
  refine ⟨report, emitted, ?_⟩
  rw [Job.bind_run_ok hTake, Job.bind_run_ok hEnd, hEnd]
  rfl

end

/-- A run of forms after one finds everything done. -/
theorem Generator.generateForms_again
    (hStored : DocumentKind.forms.Stored directory path value names workspace.tree)
    (hFormat : options.format = false) (hSome : ∃ name ∈ names, options.includes name = true)
    (hRun : generator.generateForms directory path options workspace = (.ok report, last))
    (hFailures : report.failures = []) :
    ∃ again, generator.generateForms directory path options last = (.ok {
        models := names.filter options.includes
        unchanged := DocumentKind.forms.outputs directory (names.filter options.includes) }, again) ∧
      again.tree = last.tree := by
  obtain ⟨forms, hRead, rfl⟩ := hStored.models
  have hSelected : options.selectForms forms ≠ [] := by
    obtain ⟨name, hName, hAsked⟩ := hSome
    obtain ⟨model, hModel, rfl⟩ := List.mem_map.mp hName
    exact List.ne_nil_of_mem (List.mem_filter.mpr ⟨hModel, hAsked⟩)
  obtain ⟨location, hRefilled⟩ :=
    generateForms_refilled hStored hRead hSelected hFormat hRun hFailures
  have hDocument : DocumentAt last.tree path value :=
    hStored.document.transfer fun place content hPlace hNode =>
      hRefilled.keeps place content hPlace hNode (hStored.outside location place hRefilled.leads hPlace)
  have hLoad := loadForms_ok_iff.mpr ⟨value, hDocument, hRead⟩
  obtain ⟨passed, kept, hAgain⟩ :=
    generator.generateForms_idle hRefilled.anchored hRefilled.lingering hLoad hSelected
  have hFiles := hRefilled.holds
  rw [← kept, ← Options.writes_formSteps] at hFiles
  rw [← kept]
  obtain ⟨again, hFinish, hTree⟩ := generator.finish_unchanged
    { models := (options.selectForms forms).map (·.1) } hFormat hFiles
  rw [Options.writes_formSteps, formFiles_outputs] at hFinish
  refine ⟨again, ?_, hTree⟩
  rw [hAgain, ← Options.selectForms_fst]
  exact hFinish

/-! ### Both kinds -/

/-- A run without the formatter that has no failure and is asked for a model: run again, it changes
nothing, and finds the files of all models that it is asked for unchanged. For a schema this is so if
the paths of the mappers directory and of the document lead where they do also without what the first
run removes. -/
theorem Generator.generate_again (generator : Generator) (kind : DocumentKind)
    (directory path : Path) (options : Options) (workspace last : Workspace) (report : Report)
    (value : Yaml.Value) (names : List String)
    (hStored : kind.Stored directory path value names workspace.tree)
    (hFormat : options.format = false) (hSome : ∃ name ∈ names, options.includes name = true)
    (hRun : generator.generate kind directory path options workspace = (.ok report, last))
    (hFailures : report.failures = [])
    (hPaths : kind = .schema → ∀ location place,
      (workspace.tree.createDirAll directory).1.Leads directory location →
      workspace.tree.locate path = .ok (.taken place) →
      let left := (workspace.tree.createDirAll directory).1.without
        (DocumentKind.schema.loses location report.removed)
      left.Leads directory location ∧ left.locate path = .ok (.taken place)) :
    ∃ again, generator.generate kind directory path options last = (.ok {
        models := names.filter options.includes
        written := []
        unchanged := kind.outputs directory (names.filter options.includes)
        failures := []
        removed := [] }, again) ∧
      again.tree = last.tree := by
  cases kind with
  | schema => exact generateSchema_again hStored hFormat hSome hRun hFailures (hPaths rfl)
  | forms => exact generateForms_again hStored hFormat hSome hRun hFailures

/-- After a run that removed a directory and wrote files, a run finds everything done. -/
theorem generate_again_leftovers : ∃ (value : Yaml.Value) (report : Report) (last again : Workspace),
    DocumentKind.schema.Stored "m" "schema.tw" value ["Post", "User"] leftovers.tree ∧
    plainGenerator.generate .schema "m" "schema.tw" {} leftovers = (.ok report, last) ∧
    report.removed = ["old"] ∧ report.written ≠ [] ∧
    plainGenerator.generate .schema "m" "schema.tw" {} last = (.ok {
      models := ["Post", "User"]
      unchanged := [.ofModel "m" .model "Post", .ofModel "m" .transfer "Post",
        .ofModel "m" .model "User", .ofModel "m" .transfer "User"] }, again) ∧
    again.tree = last.tree := by
  obtain ⟨value, hStored⟩ := leftovers_stored
  have hEvaluated : ((plainGenerator.generate .schema "m" "schema.tw" {} leftovers).1.toOption.any
      fun report => report.isSuccess && report.removed == ["old"] && !report.written.isEmpty) =
        true := by
    decide +kernel
  rcases hRun : plainGenerator.generate .schema "m" "schema.tw" {} leftovers with
    ⟨fault | report, last⟩
  · simp [hRun, Except.toOption] at hEvaluated
  simp only [hRun, Except.toOption, Option.any_some, Bool.and_eq_true, Report.isSuccess,
    List.isEmpty_iff, beq_iff_eq, Bool.not_eq_true', List.isEmpty_eq_false_iff] at hEvaluated
  obtain ⟨⟨hFailures, hRemoved⟩, hWritten⟩ := hEvaluated
  have hStart : (leftovers.tree.createDirAll "m").1.Leads "m" ["m"] := ⟨by rfl, by rfl⟩
  have hPlace : leftovers.tree.locate "schema.tw" = .ok (.taken ["schema.tw"]) := by rfl
  obtain ⟨again, hAgain, hTree⟩ := Generator.generate_again plainGenerator .schema "m" "schema.tw" {}
    leftovers last report value ["Post", "User"] hStored rfl ⟨"Post", by simp, rfl⟩ hRun hFailures
    (by
      intro _ location place hLeads hFound
      obtain rfl := hStart.unique hLeads
      rw [hPlace] at hFound
      cases hFound
      rw [hRemoved]
      exact ⟨⟨by rfl, by rfl⟩, by rfl⟩)
  exact ⟨value, report, last, again, hStored, rfl, hRemoved, hWritten, hAgain, hTree⟩

/-- A workspace with nothing but a schema. -/
def bare : Workspace where
  tree := { entries := [(["schema.tw"], .file (String.toUTF8 "User:\n  type: model\n"))] }

/-- Where the path of the mappers directory goes down and back, what it passes is created for it and
removed as stale, in every run. -/
theorem generate_again_roundabout : ∃ (value : Yaml.Value) (report again : Report)
    (last final : Workspace),
    DocumentKind.schema.Stored "m/x/.." "schema.tw" value ["User"] bare.tree ∧
    plainGenerator.generate .schema "m/x/.." "schema.tw" {} bare = (.ok report, last) ∧
    report.failures = [] ∧ report.models = ["User"] ∧
    plainGenerator.generate .schema "m/x/.." "schema.tw" {} last = (.ok again, final) ∧
    again.removed = ["x"] := by
  obtain ⟨value, hDocument, hModels⟩ := @DocumentKind.schema_models_of_load "schema.tw" bare ["User"]
    (by decide +kernel)
  have hStart : (bare.tree.createDirAll "m/x/..").1.Leads "m/x/.." ["m"] := ⟨by rfl, by rfl⟩
  have hPlace : bare.tree.locate "schema.tw" = .ok (.taken ["schema.tw"]) := by rfl
  have hStored : DocumentKind.schema.Stored "m/x/.." "schema.tw" value ["User"] bare.tree :=
    .of_plain (by decide +kernel) (by simp [bare]) hDocument hModels (by decide +kernel) hStart
      hPlace (by decide)
  have hEvaluated :
      (let run := plainGenerator.generate .schema "m/x/.." "schema.tw" {} bare
      run.1.toOption.any (fun report => report.isSuccess && report.models == ["User"]) &&
        (Job.align "m/x/.." (canonicalDirs ["User"]) run.2).1.toOption.any
          (fun changed => changed.removed == ["x"]) &&
        (loadSchema "schema.tw" run.2).1.toOption.any fun schema =>
          schema.dangling?.isNone && schema.models.map (·.1) == ["User"]) = true := by
    decide +kernel
  rcases hRun : plainGenerator.generate .schema "m/x/.." "schema.tw" {} bare with
    ⟨fault | report, last⟩
  · simp [hRun, Except.toOption] at hEvaluated
  rcases hLoad : (loadSchema "schema.tw" last).1 with fault | schema
  · simp [hRun, hLoad, Except.toOption] at hEvaluated
  rcases hAlign : Job.align "m/x/.." (canonicalDirs ["User"]) last with ⟨fault | changed, made⟩
  · simp [hRun, hAlign, Except.toOption] at hEvaluated
  simp only [hRun, hLoad, hAlign, Except.toOption, Option.any_some, Bool.and_eq_true,
    Report.isSuccess, List.isEmpty_iff, Option.isNone_iff_eq_none, beq_iff_eq] at hEvaluated
  obtain ⟨⟨⟨hFailures, hNames⟩, hRemoved⟩, hResolved, hModels'⟩ := hEvaluated
  have hSelected : Options.selectModels {} schema ≠ [] :=
    Options.selectModels_ne_nil ⟨"User", by simp [hModels'], rfl⟩
  rw [← hModels'] at hAlign
  -- The directories are brought into line before any file is written.
  obtain ⟨again, final, hAgain, hGoal⟩ : ∃ again final,
      plainGenerator.generateSchema "m/x/.." "schema.tw" {} last = (.ok again, final) ∧
        again.removed = ["x"] :=
    Generator.generateSchema_of_align hLoad hResolved hSelected rfl
      (fun report _ => report.removed = ["x"]) rfl hAlign fun aligned _ => by
      obtain ⟨taken, hTaken⟩ := Job.take_ok (Options.steps {} "m/x/.." schema)
        { models := (Options.selectModels {} schema).map (·.1), removed := changed.removed } aligned
      rcases hTake : Job.take (Options.steps {} "m/x/.." schema)
        { models := (Options.selectModels {} schema).map (·.1), removed := changed.removed }
        aligned with ⟨result, emitted⟩
      obtain rfl : result = .ok taken := by simpa [hTake] using hTaken
      exact ⟨taken, emitted, rfl, (Job.take_removed hTake).trans hRemoved⟩
  exact ⟨value, report, again, last, final, hStored, rfl, hFailures, hNames, hAgain, hGoal⟩

end EntityGen
