import EntityGen.Proofs.Generation.SchemaRuns

/-! Runs of a schema one after the other, each of which is asked for some of its models. Every one of
them brings the whole mappers directory into line, and what the first one does there the others find
done. So runs that are together asked for all models leave what one run of the whole schema leaves,
in whatever order they come. -/

namespace EntityGen

open Files (FileTree IsName Location Path)

variable {generator : Generator} {directory path : Path} {options : Options} {schema : Schema}
  {location : Location} {stems : List String} {before made after third : FileTree}
  {files others : List (Artifact × String)}

/-! ### Placing files more than once -/

namespace Files.FileTree.Placed

theorem of_same (hSame : before.Same made) (h : made.Placed after location stems files) :
    before.Placed after location stems files where
  proper := h.proper
  additions :=
    ⟨hSame.grows.trans h.additions.grows, fun place hPlace =>
      (h.additions.others place hPlace).trans (hSame.node place)⟩
  holds := h.holds
  others := fun place hPlace => (h.others place hPlace).trans (hSame.node place)

/-- Files can be placed one after the other, if files with one place have one text. -/
theorem trans (h : before.Placed after location stems files)
    (hNext : after.Placed third location stems others)
    (hOne : ∀ first ∈ files, ∀ second ∈ others,
      first.1.place location = second.1.place location → first = second) :
    before.Placed third location stems (files ++ others) where
  proper := hNext.proper
  additions := h.additions.trans hNext.additions
  holds := by
    refine List.forall_mem_append.mpr ⟨fun file hFile => ?_, hNext.holds⟩
    obtain ⟨hNode, hPlace⟩ := h.holds file hFile
    refine ⟨?_, hNext.additions.grows.within.locate hPlace⟩
    by_cases hAgain : ∃ other ∈ others, file.1.place location = other.1.place location
    · obtain ⟨other, hOther, hSame⟩ := hAgain
      rw [hOne file hFile other hOther hSame]
      exact (hNext.holds other hOther).1
    · rw [hNext.others _ fun other hOther hSame => hAgain ⟨other, hOther, hSame⟩, hNode]
  others := fun place hPlace => by
    rw [List.forall_mem_append] at hPlace
    rw [hNext.others place hPlace.2, h.others place hPlace.1]

/-- The same files leave the same. -/
theorem same (h : before.Placed after location stems files)
    (hOther : before.Placed third location stems others)
    (hFiles : ∀ file, file ∈ files ↔ file ∈ others) : after.Same third where
  workingDir :=
    hOther.additions.grows.within.workingDir.trans h.additions.grows.within.workingDir.symm
  node := fun place => by
    by_cases hFound : ∃ file ∈ files, place = file.1.place location
    · obtain ⟨file, hFile, rfl⟩ := hFound
      rw [(h.holds file hFile).1, (hOther.holds file ((hFiles file).mp hFile)).1]
    · rw [h.others place fun file hFile hPlace => hFound ⟨file, hFile, hPlace⟩,
        hOther.others place fun file hFile hPlace =>
          hFound ⟨file, (hFiles file).mpr hFile, hPlace⟩]

end Files.FileTree.Placed

/-- Files that could be placed together with others can be placed without them. -/
theorem Job.take_of_placed {workspace : Workspace} {steps : List Step} {report : Report}
    (hLaid : workspace.tree.LaidOut path location stems)
    (hSteps : ∀ write ∈ Step.writes steps, write.1.BelongsTo path stems)
    (hOne : ∀ first ∈ Step.writes steps, ∀ second ∈ Step.writes steps,
      first.1.place location = second.1.place location → first.2 = second.2)
    (hPlaced : workspace.tree.Placed after location stems files)
    (hFiles : ∀ write ∈ Step.writes steps, write ∈ files) (hFailures : report.failures = []) :
    ∃ result last, take steps report workspace = (.ok result, last) ∧ result.failures = [] ∧
      workspace.tree.Placed last.tree location stems (Step.writes steps) := by
  have hFits : ∀ write ∈ Step.writes steps, FileTree.pathFault? write.1.path = none ∧
      IsName (write.1.kind.fileName (Naming.stem write.1.model)) := by
    intro write hWrite
    obtain ⟨hNode, hPlace⟩ := hPlaced.holds write (hFiles write hWrite)
    refine ⟨(FileTree.locate_eq_ok_iff.mp hPlace).1, ?_⟩
    exact hPlaced.proper.names_of_node? hNode _ (by simp [Artifact.place])
  have hNodes : ∀ write ∈ Step.writes steps,
      workspace.tree.node? (write.1.place location) ≠ some .directory := by
    intro write hWrite hDirectory
    have hNode := (hPlaced.holds write (hFiles write hWrite)).1
    rw [hPlaced.additions.grows.within.directory hDirectory] at hNode
    cases hNode
  obtain ⟨result, last, hTake, hResult⟩ := take_succeeds report hLaid hSteps hFits hNodes
  exact ⟨result, last, hTake, hResult.trans hFailures,
    take_places hLaid hSteps hOne hTake (hResult.trans hFailures)⟩

/-- Scopes that cover all models have all files. -/
theorem mem_modelFiles_covered {scopes : List Options} (directory : Path)
    (hCover : ∀ model ∈ schema.models, ∃ options ∈ scopes, options.includes model.1 = true)
    (file : Artifact × String) : file ∈ modelFiles directory schema.models ↔
      file ∈ scopes.flatMap fun options => modelFiles directory (options.selectModels schema) := by
  constructor
  · intro hFile
    obtain ⟨model, hModel, hIs⟩ := mem_modelFiles_iff.mp hFile
    obtain ⟨options, hOptions, hAsked⟩ := hCover model hModel
    refine List.mem_flatMap.mpr ⟨options, hOptions, mem_modelFiles_iff.mpr ⟨model, ?_, hIs⟩⟩
    exact Options.mem_selectModels.mpr ⟨hModel, hAsked⟩
  · intro hFile
    obtain ⟨options, -, hSelected⟩ := List.mem_flatMap.mp hFile
    exact modelFiles_subset options schema directory file hSelected

/-! ### Runs one after the other -/

/-- Runs of a schema with some options one after the other, each of which has no failure. -/
inductive Generator.Runs (generator : Generator) (directory path : Path) :
    List Options → Workspace → Workspace → Prop
  | nil (workspace : Workspace) : Runs generator directory path [] workspace workspace
  | cons {options : Options} {rest : List Options} {workspace mid last : Workspace} {report : Report}
      (run : generator.generateSchema directory path options workspace = (.ok report, mid))
      (complete : report.failures = []) (onward : Runs generator directory path rest mid last) :
      Runs generator directory path (options :: rest) workspace last

variable {value : Yaml.Value} {removed : List String} {scopes : List Options}
  {workspace last : Workspace} {report : Report}

/-- A run that succeeds has found a document. -/
theorem Generator.generateSchema_document
    (h : generator.generateSchema directory path options workspace = (.ok report, last)) :
    ∃ value, DocumentAt workspace.tree path value := by
  have hWay := generator.schemaRun directory path options workspace
  rw [h] at hWay
  have hLoaded : ∃ schema, (loadSchema path workspace).1 = .ok schema := by
    generalize hEnd : (Except.ok report, last) = run at hWay
    cases hWay with
    | unloaded => cases hEnd
    | empty load => exact ⟨_, load⟩
    | dangling load => exact ⟨_, load⟩
    | unselected load => exact ⟨_, load⟩
    | emitted load => exact ⟨_, load⟩
  obtain ⟨schema, hLoad⟩ := hLoaded
  obtain ⟨value, hDocument, -⟩ := loadSchema_ok_iff.mp hLoad
  exact ⟨value, hDocument⟩

/-- A run that is asked for none of the models does nothing. -/
theorem Generator.generateSchema_unasked (hLoad : (loadSchema path workspace).1 = .ok schema)
    (hResolved : schema.dangling? = none) (hNone : options.selectModels schema = []) :
    ∃ last, generator.generateSchema directory path options workspace = (.ok {}, last) ∧
      last.tree = workspace.tree := by
  have hWay := generator.schemaRun directory path options workspace
  generalize generator.generateSchema directory path options workspace = run at hWay
  cases hWay with
  | unloaded load => simp [hLoad] at load
  | empty _ _ kept => exact ⟨_, rfl, kept⟩
  | @dangling read _ _ load dangling =>
    obtain rfl : schema = read := by simpa [hLoad] using load
    simp [hResolved] at dangling
  | unselected _ _ _ kept => exact ⟨_, rfl, kept⟩
  | @emitted read _ load _ selected =>
    obtain rfl : schema = read := by simpa [hLoad] using load
    exact absurd hNone selected

/-- A run after others brings nothing new into line, and puts its files beside theirs. -/
theorem Settled.next {current made' after' : FileTree} {options' : Options} {removed' : List String}
    {location' : Location}
    (h : Settled directory location schema options removed before made after)
    (hSegments : ∀ name ∈ schema.dirs, Files.IsSegment name) (hSome : schema.dirs ≠ [])
    (hStems : (schema.models.map fun model => Naming.stem model.1).Nodup)
    (hFiles : ∀ file ∈ files, file ∈ modelFiles directory schema.models)
    (hPlaced : made.Placed current location schema.dirs files)
    (hNext : Settled directory location' schema options' removed' current made' after') :
    location' = location ∧ made.Placed after' location schema.dirs
      (files ++ modelFiles directory (options'.selectModels schema)) := by
  have hLaid := h.laidOut.grows hPlaced.additions.grows hPlaced.proper
  have hAgain := hNext.aligned
  rw [hLaid.anchored.leads.createDirAll_eq_self] at hAgain
  obtain rfl : location' = location := hAgain.leads.unique hLaid.anchored.leads
  have hSame := h.aligned.again h.noLink hSegments hSome hPlaced.proper hPlaced.additions hAgain
  refine ⟨rfl, hPlaced.trans (hNext.placed.of_same hSame) fun first hFirst second hSecond => ?_⟩
  exact modelFiles_place hStems first (hFiles first hFirst) second
    (modelFiles_subset options' schema directory second hSecond)

variable (hRead : Schema.ofValue value = .ok schema)
  (hSome : ∀ options ∈ scopes, options.selectModels schema ≠ [])
  (hFormat : ∀ options ∈ scopes, options.format = false)

theorem Generator.Runs.document (h : generator.Runs directory path scopes workspace last)
    (hFound : ∃ value, DocumentAt last.tree path value) :
    ∃ value, DocumentAt workspace.tree path value := by
  cases h with
  | nil => exact hFound
  | cons run => exact generateSchema_document run

include hRead hSome hFormat

/-- Runs leave the document stored, if its path leads to one, and the mappers directory where it
was. -/
theorem Generator.Runs.stored (h : generator.Runs directory path scopes workspace last)
    (hStored : DocumentKind.schema.Stored directory path value (schema.models.map (·.1))
      workspace.tree)
    (hFound : ∃ other, DocumentAt last.tree path other) :
    DocumentKind.schema.Stored directory path value (schema.models.map (·.1)) last.tree ∧
      ∀ location, (workspace.tree.createDirAll directory).1.Leads directory location →
        (last.tree.createDirAll directory).1.Leads directory location := by
  induction h with
  | nil => exact ⟨hStored, fun _ => id⟩
  | cons run complete onward ih =>
    rw [List.forall_mem_cons] at hSome hFormat
    obtain ⟨_, _, _, _, -, -, -, hSettled⟩ :=
      generateSchema_settled hStored hRead hSome.1 hFormat.1 run complete
    obtain ⟨other, hOther⟩ := onward.document hFound
    obtain ⟨hLast, hLeads⟩ := ih hSome.2 hFormat.2 (hSettled.stored hStored hOther.locate) hFound
    refine ⟨hLast, fun location hStart => hLeads location ?_⟩
    rw [hStart.unique hSettled.aligned.leads]
    exact hSettled.leads_after

/-- Runs after a first one put all their files beside those that were put before. -/
theorem Generator.Runs.placed
    (hFirst : Settled directory location schema options removed before made after)
    (h : generator.Runs directory path scopes workspace last)
    (hStored : (∃ other, DocumentAt workspace.tree path other) →
      DocumentKind.schema.Stored directory path value (schema.models.map (·.1)) workspace.tree)
    (hFiles : ∀ file ∈ files, file ∈ modelFiles directory schema.models)
    (hPlaced : made.Placed workspace.tree location schema.dirs files) :
    made.Placed last.tree location schema.dirs
      (files ++ scopes.flatMap fun options => modelFiles directory (options.selectModels schema)) := by
  induction h generalizing files with
  | nil =>
    rw [List.flatMap_nil, List.append_nil]
    exact hPlaced
  | @cons scope rest workspace mid last report run complete onward ih =>
    rw [List.forall_mem_cons] at hSome hFormat
    have hHere := hStored (generateSchema_document run)
    obtain ⟨_, _, _, _, -, -, -, hSettled⟩ :=
      generateSchema_settled hHere hRead hSome.1 hFormat.1 run complete
    obtain ⟨rfl, hBoth⟩ := hFirst.next (Schema.isSegment_dirs (hHere.isModelName hRead))
      (Schema.dirs_ne_nil hSome.1) hHere.stems_nodup hFiles hPlaced hSettled
    rw [List.flatMap_cons, ← List.append_assoc]
    refine ih hSome.2 hFormat.2 (fun ⟨_, hOther⟩ => hSettled.stored hHere hOther.locate) ?_ hBoth
    exact List.forall_mem_append.mpr ⟨hFiles, modelFiles_subset scope schema directory⟩

/-- A run of the whole schema leaves what runs leave that are asked for all of its models together. -/
theorem Generator.Runs.whole (h : generator.Runs directory path scopes workspace last)
    (hStored : DocumentKind.schema.Stored directory path value (schema.models.map (·.1))
      workspace.tree)
    (hCover : ∀ model ∈ schema.models, ∃ options ∈ scopes, options.includes model.1 = true) :
    ∃ report full, generator.generateSchema directory path {} workspace = (.ok report, full) ∧
      report.failures = [] ∧ full.tree.Same last.tree := by
  have hLoad := loadSchema_ok_iff.mpr ⟨value, hStored.document, hRead⟩
  have hResolved := hStored.resolved hRead
  have hModels : Options.selectModels {} schema = schema.models :=
    List.filter_eq_self.mpr fun _ _ => rfl
  cases h with
  | nil =>
    have hNone : Options.selectModels {} schema = [] := by
      rw [hModels]
      refine List.eq_nil_iff_forall_not_mem.mpr fun model hModel => ?_
      obtain ⟨options, hNever, -⟩ := hCover model hModel
      cases hNever
    obtain ⟨full, hRun, hTree⟩ : ∃ full,
        generator.generateSchema directory path {} workspace = (.ok {}, full) ∧
          full.tree = workspace.tree :=
      generateSchema_unasked hLoad hResolved hNone
    exact ⟨{}, full, hRun, rfl, hTree ▸ .refl _⟩
  | @cons scope rest _ mid _ _ run complete onward =>
    rw [List.forall_mem_cons] at hSome hFormat
    obtain ⟨passed, changed, made, location, hTree, hAlign, -, hFirst⟩ :=
      generateSchema_settled hStored hRead hSome.1 hFormat.1 run complete
    have hAll : made.tree.Placed last.tree location schema.dirs
        ((scope :: rest).flatMap fun options =>
          modelFiles directory (options.selectModels schema)) := by
      rw [List.flatMap_cons]
      exact Runs.placed hRead hSome.2 hFormat.2 hFirst onward
        (fun ⟨_, hOther⟩ => hFirst.stored hStored hOther.locate)
        (modelFiles_subset scope schema directory) hFirst.placed
    have hNotNone : Options.selectModels {} schema ≠ [] := by
      obtain ⟨model, hModel⟩ := List.exists_mem_of_ne_nil _ hSome.1
      rw [hModels]
      exact List.ne_nil_of_mem (Options.mem_selectModels.mp hModel).1
    have hWrites : Step.writes (Options.steps {} directory schema) =
        modelFiles directory schema.models := by
      rw [Options.writes_steps, hModels]
    have hFiles := fun file => mem_modelFiles_covered directory hCover file
    obtain ⟨report, full, hRun, hNoFailure, hPlaced⟩ :=
      generateSchema_of_align hLoad hResolved hNotNone rfl
        (fun report tree => report.failures = [] ∧
          made.tree.Placed tree location schema.dirs (modelFiles directory schema.models))
        hTree hAlign fun start hStart => by
          rw [← hWrites, ← hStart]
          refine Job.take_of_placed (hStart ▸ hFirst.laidOut) ?_ ?_ (hStart ▸ hAll) ?_ rfl
          · rw [hWrites]
            exact Schema.belongsTo (hStored.isModelName hRead)
          · rw [hWrites]
            exact fun first hFile second hSecond hPlace => congrArg Prod.snd
              (modelFiles_place hStored.stems_nodup first hFile second hSecond hPlace)
          · rw [hWrites]
            exact fun file => (hFiles file).mp
    exact ⟨report, full, hRun, hNoFailure, hPlaced.same hAll hFiles⟩

omit hRead hSome hFormat

/-- Runs without the formatter, each of which is asked for a model and which are together asked for
all of them: if they have no failure, one run of the whole schema has none either, and leaves the
same. Each of them leaves the files of the models that it was not asked for as they were. -/
theorem Generator.generateSchema_scoped (generator : Generator) (directory path : Path)
    (value : Yaml.Value) (names : List String) (scopes : List Options) (workspace last : Workspace)
    (hStored : DocumentKind.schema.Stored directory path value names workspace.tree)
    (hFormat : ∀ options ∈ scopes, options.format = false)
    (hSome : ∀ options ∈ scopes, ∃ name ∈ names, options.includes name = true)
    (hCover : ∀ name ∈ names, ∃ options ∈ scopes, options.includes name = true)
    (hRuns : generator.Runs directory path scopes workspace last) :
    (∃ report full, generator.generateSchema directory path {} workspace = (.ok report, full) ∧
      report.failures = [] ∧ full.tree.Same last.tree) ∧
    ∀ earlier options later before after, scopes = earlier ++ options :: later →
      generator.Runs directory path earlier workspace before →
      generator.Runs directory path [options] before after →
      ∀ location, (workspace.tree.createDirAll directory).1.Leads directory location →
      ∀ name ∈ names, options.includes name = false → ∀ kind content,
        after.tree.node? ((Artifact.ofModel directory kind name).place location) =
            some (.file content) ↔
          before.tree.node? ((Artifact.ofModel directory kind name).place location) =
            some (.file content) := by
  obtain ⟨schema, hRead, -, rfl⟩ := hStored.models
  have hModels : ∀ options ∈ scopes, options.selectModels schema ≠ [] := fun options hOptions =>
    Options.selectModels_ne_nil (hSome options hOptions)
  refine ⟨hRuns.whole hRead hModels hFormat hStored
    fun model hModel => hCover model.1 (List.mem_map_of_mem hModel), ?_⟩
  intro earlier options later before after hSplit hEarlier hRun location hLeads name hName hUnasked
  subst hSplit
  obtain ⟨hFormatEarlier, hFormatRun⟩ := List.forall_mem_append.mp hFormat
  obtain ⟨hModelsEarlier, hModelsRun⟩ := List.forall_mem_append.mp hModels
  cases hRun with
  | cons run complete onward =>
    cases onward
    obtain ⟨hBefore, hStart⟩ := hEarlier.stored hRead hModelsEarlier hFormatEarlier hStored
      (generateSchema_document run)
    obtain ⟨_, _, _, other, -, -, -, hSettled⟩ := generateSchema_settled hBefore hRead
      (hModelsRun options (by simp)) (hFormatRun options (by simp)) run complete
    obtain ⟨model, hModel, rfl⟩ := List.mem_map.mp hName
    obtain rfl := (hStart location hLeads).unique hSettled.aligned.leads
    exact hSettled.unselected_iff hBefore.stems_nodup hModel hUnasked

/-- Two runs for one model each leave what one run leaves, also where something is stale. -/
theorem generateSchema_leftovers : ∃ (value : Yaml.Value) (mid last : Workspace),
    DocumentKind.schema.Stored "m" "schema.tw" value ["Post", "User"] leftovers.tree ∧
    plainGenerator.Runs "m" "schema.tw" [{ names := some ["User"] }, { names := some ["Post"] }]
      leftovers last ∧
    leftovers.tree.node? ["m", "old"] = some .directory ∧ mid.tree.node? ["m", "old"] = none ∧
    (∃ report full, plainGenerator.generateSchema "m" "schema.tw" {} leftovers = (.ok report, full) ∧
      report.failures = [] ∧ full.tree.Same last.tree) ∧
    ∀ kind content,
      last.tree.node? ((Artifact.ofModel "m" kind "User").place ["m"]) = some (.file content) ↔
        mid.tree.node? ((Artifact.ofModel "m" kind "User").place ["m"]) = some (.file content) := by
  obtain ⟨value, hStored⟩ := leftovers_stored
  have hEvaluated :
      (let first := plainGenerator.generateSchema "m" "schema.tw" { names := some ["User"] } leftovers
      let second := plainGenerator.generateSchema "m" "schema.tw" { names := some ["Post"] } first.2
      first.1.toOption.any Report.isSuccess && second.1.toOption.any Report.isSuccess &&
        (first.2.tree.node? ["m", "old"]).isNone) = true := by
    decide +kernel
  rcases hFirst : plainGenerator.generateSchema "m" "schema.tw" { names := some ["User"] }
    leftovers with ⟨fault | report, mid⟩
  · simp [hFirst, Except.toOption] at hEvaluated
  rcases hSecond : plainGenerator.generateSchema "m" "schema.tw" { names := some ["Post"] } mid with
    ⟨fault | later, last⟩
  · simp [hFirst, hSecond, Except.toOption] at hEvaluated
  simp only [hFirst, hSecond, Except.toOption, Option.any_some, Bool.and_eq_true,
    Report.isSuccess, List.isEmpty_iff, Option.isNone_iff_eq_none] at hEvaluated
  obtain ⟨⟨hReport, hLater⟩, hGone⟩ := hEvaluated
  have hEarlier : plainGenerator.Runs "m" "schema.tw" [{ names := some ["User"] }] leftovers mid :=
    .cons hFirst hReport (.nil mid)
  have hNext : plainGenerator.Runs "m" "schema.tw" [{ names := some ["Post"] }] mid last :=
    .cons hSecond hLater (.nil last)
  have hRuns : plainGenerator.Runs "m" "schema.tw"
      [{ names := some ["User"] }, { names := some ["Post"] }] leftovers last :=
    .cons hFirst hReport hNext
  have hStart : (leftovers.tree.createDirAll "m").1.Leads "m" ["m"] := ⟨by rfl, by rfl⟩
  obtain ⟨hWhole, hOthers⟩ := Generator.generateSchema_scoped plainGenerator "m" "schema.tw" value
    ["Post", "User"] _ leftovers last hStored (by simp) (by decide +kernel) (by decide +kernel) hRuns
  exact ⟨value, mid, last, hStored, hRuns, by rfl, hGone, hWhole,
    hOthers [{ names := some ["User"] }] { names := some ["Post"] } [] mid last rfl hEarlier hNext
      ["m"] hStart "User" (by simp) (by decide +kernel)⟩

end EntityGen
