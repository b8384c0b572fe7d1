import EntityGen.Proofs.Generation.SchemaRuns

/-! Runs that are asked for all models of a schema. Afterwards the directories in the mappers
directory are those of the models, if the schema has models and the path of the mappers directory
does not lead through what was stale. A directory on a roundabout way is created again when the
directories of models are, and a schema with no models but other entries clears nothing. Links below
the directories of models are allowed here. -/

namespace EntityGen

open Files (FileTree IsSegment IsStep Location Node Path)

namespace Files.FileTree

variable {before after tree : FileTree} {links left : Nat} {here place directory : Location}
  {names rest : List String} {found : Place} {lost : Location → Bool}

/-- The directories in a directory are those of some names, apart from those that never belong to
models. -/
def Mirrors (tree : FileTree) (directory : Location) (names : List String) : Prop :=
  ∀ name, isSetAside name = false →
    (tree.node? (directory ++ [name]) = some .directory ↔ name ∈ names)

/-- Names that lead to a directory do so without what was taken away, if a walk along them leads on
in a tree that has nothing where one would enter what was taken away. -/
theorem Walks.avoids (hRoot : lost [] = false)
    (hBack : ∀ location, lost location = false → lost location.dropLast = false)
    (hWithin : (before.without lost).Within after)
    (hEdge : ∀ here name, lost here = false → lost (here ++ [name]) = true →
      after.node? (here ++ [name]) = none)
    (h : Walks before true links here names (.taken place))
    (hPlace : before.node? place = some .directory) (hHere : lost here = false) (hRest : rest ≠ [])
    (hOnward : after.walk true left here (names ++ rest) = .ok found) :
    Walks (before.without lost) true links here names (.taken place) := by
  -- A step into what was taken away comes to nothing, and the walk is to lead on.
  have hOutside {here : Location} {name : String} {names : List String} {left : Nat}
      (step : IsStep name) (hHere : lost here = false)
      (hOnward : after.walk true left here (name :: names ++ rest) = .ok found) :
      lost (here ++ [name]) = false := by
    rw [Bool.eq_false_iff]
    intro hLost
    rw [List.cons_append, walk_vacant step (hEdge here name hHere hLost),
      if_neg (by simp [hRest])] at hOnward
    cases hOnward
  have hKept {location : Location} (hLocation : lost location = false) :
      (before.without lost).node? location = before.node? location := by
    rw [node?_without hRoot, hLocation]
    rfl
  generalize hEnd : Place.taken place = ending at h ⊢
  induction h generalizing left with
  | here => exact .here
  | point _ ih =>
    rw [List.cons_append, walk_point] at hOnward
    exact .point (ih hHere hOnward hEnd)
  | back _ ih =>
    rw [List.cons_append, walk_back] at hOnward
    exact .back (ih (hBack _ hHere) hOnward hEnd)
  | directory step node _ ih =>
    have hNext := hOutside step hHere hOnward
    have hNode := (hKept hNext).trans node
    rw [List.cons_append, walk_directory step (hWithin.directory hNode)] at hOnward
    exact .directory step hNode (ih hNext hOnward hEnd)
  | file step node =>
    obtain rfl := Place.taken.inj hEnd
    rw [hPlace] at node
    cases node
  | vacant => cases hEnd
  | linkEnd _ _ unfollowed => cases unfollowed
  | @link _ here _ target _ _ step node followed _ ih =>
    have hNode := (hKept (hOutside step hHere hOnward)).trans node
    have hStart : lost (startOf here target) = false := by
      rw [startOf]
      split
      · exact hRoot
      · exact hHere
    rcases left with _ | left
    · rw [List.cons_append, walk, stage_step step, hWithin.link hNode] at hOnward
      simp at hOnward
    · rw [List.cons_append, walk_link step (hWithin.link hNode) (.inl rfl),
        ← List.append_assoc] at hOnward
      exact .link step hNode followed (ih hStart hOnward hEnd)

end Files.FileTree

variable {before after : FileTree} {path : Path} {directory : Location}
  {canonical removed : List String}

namespace DocumentKind

theorem loses_dropLast {location : Location}
    (h : DocumentKind.schema.loses directory removed location = false) :
    DocumentKind.schema.loses directory removed location.dropLast = false := by
  rw [Bool.eq_false_iff] at h ⊢
  intro hLost
  obtain ⟨name, hName, below, hBelow⟩ := loses_schema.mp hLost
  obtain ⟨rest, hRest⟩ := location.dropLast_prefix
  refine h (loses_schema.mpr ⟨name, hName, below ++ rest, ?_⟩)
  rw [← hRest, hBelow, List.append_assoc, List.cons_append]

/-- What is taken away is entered at a stale directory. -/
theorem eq_of_loses_append {here : Location} {name : String}
    (hHere : DocumentKind.schema.loses directory removed here = false)
    (hNext : DocumentKind.schema.loses directory removed (here ++ [name]) = true) :
    ∃ stale ∈ removed, here ++ [name] = directory ++ [stale] := by
  obtain ⟨stale, hStale, below, hBelow⟩ := loses_schema.mp hNext
  rcases List.eq_nil_or_concat below with rfl | ⟨inner, last, rfl⟩
  · exact ⟨stale, hStale, hBelow⟩
  · rw [Bool.eq_false_iff] at hHere
    refine absurd (loses_schema.mpr ⟨stale, hStale, inner, ?_⟩) hHere
    have hDrop := congrArg List.dropLast hBelow
    rwa [List.dropLast_concat, List.concat_eq_append, ← List.cons_append, ← List.append_assoc,
      List.dropLast_concat] at hDrop

end DocumentKind

/-- When the mappers directory was brought into line, the directories in it are those of the models,
just if its path does not pass what was removed. -/
theorem Aligned.mirrors_iff (h : Aligned path directory canonical removed before after)
    (hIn : before.NoLinkIn directory) (hSegments : ∀ name ∈ canonical, IsSegment name)
    (hSome : canonical ≠ [])
    (hStart : DocumentKind.schema.loses directory removed
      (FileTree.startOf before.workingDir path) = false) :
    after.Mirrors directory canonical ↔
      (before.without (DocumentKind.schema.loses directory removed)).Leads path directory := by
  constructor
  · intro hMirrors
    obtain ⟨model, hModel⟩ := List.exists_mem_of_ne_nil _ hSome
    obtain ⟨place, hPlace⟩ := h.found model hModel
    have hRelative := Path.isAbsolute_of_noSlash (hSegments model hModel).noSlash
    have hOnward := hPlace.walks.walk_eq
    rw [FileTree.startOf, Path.isAbsolute_join hRelative, Path.components_join hRelative,
      ← FileTree.startOf, h.workingDir] at hOnward
    have hEdge : ∀ here name, DocumentKind.schema.loses directory removed here = false →
        DocumentKind.schema.loses directory removed (here ++ [name]) = true →
          after.node? (here ++ [name]) = none := by
      intro here name hHere hNext
      obtain ⟨stale, hStale, hEntry⟩ := DocumentKind.eq_of_loses_append hHere hNext
      refine (h.lost_cases hNext).resolve_right fun hNew => ?_
      have hGone := (h.stale stale).mp hStale
      exact hGone.gone ((hMirrors stale hGone.ofModel).mp (hEntry ▸ hNew))
    have hWalk := h.leads.walks.avoids (DocumentKind.loses_root removed)
      (fun _ => DocumentKind.loses_dropLast) h.gains.grows.within hEdge h.leads.directory hStart
      (by simp [Path.components_of_noSlash (hSegments model hModel).noSlash
        (hSegments model hModel).notEmpty]) hOnward
    refine .of_walks (Files.FileTree.locate_eq_ok_iff.mp h.leads.locate).1 hWalk ?_
    rw [FileTree.node?_without (DocumentKind.loses_root _),
      DocumentKind.loses_of_prefix (List.prefix_refl _)]
    exact h.leads.directory
  · intro hCleared name hVisible
    constructor
    · intro hFound
      by_contra hGone
      exact h.nothing_stale hIn hSegments hCleared ⟨hFound, hVisible, hGone⟩
    · intro hName
      exact (h.leads_join hIn (hCleared.within h.gains.grows.within) hName
        (hSegments name hName)).directory

/-! ### Steps among directories -/

variable {artifact : Artifact} {text : String} {stems : List String} {workspace last : Workspace}

/-- A file that is written where its directory is there makes no directory and takes none away. -/
theorem Artifact.BelongsTo.write_directories (h : artifact.BelongsTo path stems) {place : Location}
    (hThere : workspace.tree.Leads (Path.join path (Naming.stem artifact.model)) place)
    {result : Except Fault Bool}
    (hRun : Job.writeIfChanged artifact.path text workspace = (result, last)) (location : Location) :
    last.tree.node? location = some .directory ↔
      workspace.tree.node? location = some .directory := by
  rw [Job.writeIfChanged, Job.bind_run_ok (Job.tree_run workspace)] at hRun
  split at hRun
  · obtain ⟨-, rfl⟩ := Prod.mk.inj hRun
    rfl
  rw [Job.bind_run, h.writeFile_run hThere] at hRun
  rcases hWritten : workspace.tree.write artifact.path text.toUTF8 with cause | made
  · rw [Job.replaceTree_run_error hWritten] at hRun
    obtain ⟨-, rfl⟩ := Prod.mk.inj hRun
    rfl
  · rw [Job.replaceTree_run_ok hWritten] at hRun
    obtain ⟨-, rfl⟩ := Prod.mk.inj hRun
    obtain ⟨file, hRoot, rfl, hGrows, -⟩ := FileTree.write_ok hWritten
    refine ⟨fun hAfter => ?_, hGrows.within.directory⟩
    rw [FileTree.node?_put hRoot] at hAfter
    split at hAfter
    · cases hAfter
    · exact hAfter

/-- Steps make no directories and take none away, where the directories of their files are there. -/
theorem Job.take_directories {steps : List Step} {report result : Report}
    (hDirs : ∀ stem ∈ stems, ∃ place, workspace.tree.Leads (Path.join path stem) place)
    (hSteps : ∀ write ∈ Step.writes steps, write.1.BelongsTo path stems)
    (h : take steps report workspace = (.ok result, last)) (location : Location) :
    last.tree.node? location = some .directory ↔
      workspace.tree.node? location = some .directory := by
  induction steps generalizing report workspace with
  | nil =>
    obtain ⟨-, rfl⟩ := take_nil h
    rfl
  | cons step rest ih =>
    cases step with
    | tell notice =>
      obtain ⟨mid, hTree, hRest⟩ := take_tell h
      exact hTree ▸ ih (hTree ▸ hDirs) hSteps hRest
    | write artifact text =>
      simp only [Step.writes, List.forall_mem_cons] at hSteps
      obtain ⟨outcome, written, mid, hWrite, hTree, hRest⟩ := take_write_run h
      obtain ⟨place, hThere⟩ := hDirs _ hSteps.1.2.1
      have hGrows := (writeIfChanged_run hWrite).grows
      rw [← hTree] at hGrows
      rw [ih (fun stem hStem => (hDirs stem hStem).imp fun _ hLeads => hLeads.within hGrows.within)
        hSteps.2 hRest, hTree]
      exact hSteps.1.write_directories hThere hWrite location

/-! ### Runs -/

theorem Files.FileTree.Rewrites.directory_iff (h : before.Rewrites after) {location : Location} :
    after.node? location = some .directory ↔ before.node? location = some .directory :=
  ⟨h.back.directory, h.within.directory⟩

variable {generator : Generator} {options : Options} {documentPath : Path} {report : Report}
  {schema : Schema}

theorem Options.selectModels_all (h : options.names = none) (schema : Schema) :
    options.selectModels schema = schema.models := by
  rw [selectModels, List.filter_eq_self]
  intro model _
  rw [includes, h]

/-- What a run of all models of a schema with models comes to: the mappers directory was brought into
line, and has the directories that it has at the end. -/
theorem Generator.generateSchema_directories (hProper : workspace.tree.Proper)
    (hFormatter : generator.OnlyRewrites)
    (hLoad : (loadSchema documentPath workspace).1 = .ok schema) (hResolved : schema.dangling? = none)
    (hSelected : options.selectModels schema ≠ [])
    (h : generator.generateSchema path documentPath options workspace = (.ok report, last)) :
    ∃ made location, Aligned path location schema.dirs report.removed
        (workspace.tree.createDirAll path).1 made ∧
      ∀ place, last.tree.node? place = some .directory ↔ made.node? place = some .directory := by
  have hNames := (@Options.selectModels_names {} documentPath workspace schema hLoad).2
  have hSegments := Schema.isSegment_dirs hNames
  obtain ⟨passed, changed, made, emitted, hTree, hAlign, hTake, hLast⟩ :=
    generateSchema_align hLoad hResolved hSelected h
  obtain ⟨location, hAligned⟩ := Job.align_aligned (hTree ▸ hProper)
    (fun name hName => (hSegments name hName).notEmpty) hAlign
  rw [hTree] at hAligned
  have hRewrites := formatted_rewrites hFormatter path options emitted.tree
  rw [← hLast] at hRewrites
  refine ⟨made.tree, location, ?_, fun place => ?_⟩
  · rw [Job.take_removed hTake]
    exact hAligned
  · rw [hRewrites.directory_iff]
    exact Job.take_directories hAligned.found (options.steps_belong path hNames) hTake place

/-- After a run of all models of a schema, where there are no links directly in the mappers directory
and no stale directory of it is the one from which the path starts, or around it: if the schema has
no models, the file tree is as before, and the directories are those of the models just if there were
none. Otherwise what was stale was removed, and the directories are those of the models just if the
path of the mappers directory does not lead through what was removed. -/
theorem Generator.generateSchema_mirrors_iff (generator : Generator) (path documentPath : Path)
    (options : Options) (workspace last : Workspace) (report : Report) (value : Yaml.Value)
    (schema : Schema) (location : Location) (hProper : workspace.tree.Proper)
    (hFormatter : generator.OnlyRewrites)
    (hSchema : SchemaAt workspace.tree documentPath value schema)
    (hAll : options.names = none)
    (hLeads : (workspace.tree.createDirAll path).1.Leads path location)
    (hIn : workspace.tree.NoLinkIn location)
    (hStart : ∀ name below, FileTree.startOf workspace.tree.workingDir path =
      location ++ name :: below →
        ¬ (workspace.tree.createDirAll path).1.IsStale location schema.dirs name)
    (hRun : generator.generateSchema path documentPath options workspace = (.ok report, last)) :
    let start := (workspace.tree.createDirAll path).1
    (schema.models = [] → last.tree = workspace.tree ∧
      (last.tree.Mirrors location schema.dirs ↔ ∀ name, isSetAside name = false →
        workspace.tree.node? (location ++ [name]) ≠ some .directory)) ∧
    (schema.models ≠ [] →
      (∀ name, name ∈ report.removed ↔ start.IsStale location schema.dirs name) ∧
      (last.tree.Mirrors location schema.dirs ↔
        (start.without (DocumentKind.schema.loses location report.removed)).Leads path location)) := by
  have hLoad := loadSchema_ok_iff.mpr ⟨value, hSchema⟩
  have hSelected := Options.selectModels_all hAll schema
  have hWay := generator.schemaRun path documentPath options workspace
  rw [hRun] at hWay
  refine ⟨fun hNone => ?_, fun hModels => ?_⟩
  · have hKept : last.tree = workspace.tree :=
      hWay.tree_eq_of_unasked hLoad (hSelected.trans hNone)
    have hDirs : schema.dirs = [] := by
      rw [Schema.dirs, hNone]
      rfl
    refine ⟨hKept, ?_⟩
    simp only [FileTree.Mirrors, hKept, hDirs, List.not_mem_nil, iff_false, ne_eq]
  · have hResolved := hWay.resolved_of_ok hLoad rfl
    have hNames := (@Options.selectModels_names {} documentPath workspace schema hLoad).2
    rw [← hSelected] at hModels
    obtain ⟨made, found, hAligned, hSame⟩ :=
      generateSchema_directories hProper hFormatter hLoad hResolved hModels hRun
    obtain rfl := hAligned.leads.unique hLeads
    have hStartIn : (workspace.tree.createDirAll path).1.NoLinkIn found := fun name target hLink =>
      hIn name target ((workspace.tree.createDirAll_gains path).grows.links _ _ hLink)
    have hOutside : DocumentKind.schema.loses found report.removed
        (FileTree.startOf (workspace.tree.createDirAll path).1.workingDir path) = false := by
      rw [(workspace.tree.createDirAll_gains path).workingDir, Bool.eq_false_iff]
      intro hLost
      obtain ⟨name, hName, below, hBelow⟩ := DocumentKind.loses_schema.mp hLost
      exact hStart name below hBelow ((hAligned.stale name).mp hName)
    refine ⟨hAligned.stale, ?_⟩
    rw [← hAligned.mirrors_iff hStartIn (Schema.isSegment_dirs hNames)
      (Schema.dirs_ne_nil hModels) hOutside]
    simp only [FileTree.Mirrors, hSame]

/-- A schema that has a configuration and no models, and a directory of a model that is gone. -/
def modelless : Workspace where
  tree :=
    { entries := [(["schema.tw"], .file (String.toUTF8 "Settings:\n  type: config\n")),
        (["m"], .directory), (["m", "old"], .directory)] }

/-- The run succeeds, and the directory of the model that is gone is still there. -/
theorem old_dir_stays : ∃ value schema report last, modelless.tree.Proper ∧
    plainGenerator.OnlyRewrites ∧ SchemaAt modelless.tree "schema.tw" value schema ∧
    schema.entries ≠ [] ∧ (modelless.tree.createDirAll "m").1.Leads "m" ["m"] ∧
    plainGenerator.generateSchema "m" "schema.tw" {} modelless = (.ok report, last) ∧
    ¬ last.tree.Mirrors ["m"] schema.dirs := by
  have hEvaluated : ((loadSchema "schema.tw" modelless).1.toOption.any fun schema =>
      !schema.entries.isEmpty && schema.models.isEmpty &&
        (plainGenerator.generateSchema "m" "schema.tw" {} modelless).1.isOk) = true := by
    decide +kernel
  rcases hLoad : (loadSchema "schema.tw" modelless).1 with fault | schema
  · simp [hLoad, Except.toOption] at hEvaluated
  simp only [hLoad, Except.toOption, Option.any_some, Bool.and_eq_true, Bool.not_eq_true',
    List.isEmpty_eq_false_iff, List.isEmpty_iff] at hEvaluated
  obtain ⟨⟨hSome, hNone⟩, hOk⟩ := hEvaluated
  rcases hRun : plainGenerator.generateSchema "m" "schema.tw" {} modelless with
    ⟨fault | report, last⟩
  · simp [hRun, Except.isOk, Except.toBool] at hOk
  obtain ⟨value, hSchema⟩ := loadSchema_ok_iff.mp hLoad
  have hProper : modelless.tree.Proper := by decide +kernel
  have hFormatter : plainGenerator.OnlyRewrites := fun _ _ tree => ⟨.refl tree, .refl tree, id⟩
  have hLeads : (modelless.tree.createDirAll "m").1.Leads "m" ["m"] := ⟨by rfl, by rfl⟩
  have hPlain : ∀ entry ∈ modelless.tree.entries, ∀ target, entry.2 ≠ .link target := by
    simp [modelless]
  refine ⟨value, schema, report, last, hProper, hFormatter, hSchema, hSome, hLeads, rfl, ?_⟩
  obtain ⟨-, hIff⟩ := (Generator.generateSchema_mirrors_iff plainGenerator "m" "schema.tw" {}
    modelless last report value schema ["m"] hProper hFormatter hSchema rfl hLeads
    (hProper.noLinkBelow hPlain ["m"]).noLinkIn (by simp [FileTree.startOf, modelless]) hRun).1 hNone
  exact fun hMirrors => hIff.mp hMirrors "old" (by decide) (by rfl)

end EntityGen
