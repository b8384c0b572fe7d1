import EntityGen.Proofs.Generation.Emission
import EntityGen.Proofs.Schema.Entries

/-! The files of the models after a schema run that had no failures. Each path of a file leads to a
file, and what is there was written last; so all files have the texts of their own models just if
files that are found at one place have one text. Below a mappers directory without links, files are
found at one place if they are of one kind and their models have one stem. -/

namespace EntityGen

open Files (FileTree Location Path)

section Files

variable {directory : Path} {models : List (String × Model)} {file : Artifact × String}

/-- A file is one of a kind of a model. -/
theorem mem_modelFiles (h : file ∈ modelFiles directory models) :
    ∃ name model kind, (name, model) ∈ models ∧ file.1 = .ofModel directory kind name := by
  obtain ⟨⟨name, model⟩, hModel, hFile⟩ := List.mem_flatMap.mp h
  simp only [List.mem_cons, List.not_mem_nil, or_false] at hFile
  rcases hFile with rfl | rfl
  · exact ⟨name, model, .model, hModel, rfl⟩
  · exact ⟨name, model, .transfer, hModel, rfl⟩

/-- Models with different names have different files. -/
theorem modelFiles_nodup (h : (models.map (·.1)).Nodup) :
    ((modelFiles directory models).map (·.1)).Nodup := by
  induction models with
  | nil => exact .nil
  | cons model rest ih =>
    rw [List.map_cons, List.nodup_cons] at h
    rw [modelFiles, List.flatMap_cons, List.map_append, ← modelFiles, List.nodup_append]
    refine ⟨by simp [Artifact.ofModel], ih h.2, fun first hFirst second hSecond hSame => h.1 ?_⟩
    obtain ⟨file, hFile, rfl⟩ := List.mem_map.mp hSecond
    obtain ⟨name, other, kind, hOther, hArtifact⟩ := mem_modelFiles hFile
    have hModel : first.model = model.1 := by
      simp only [List.map_cons, List.map_nil, List.mem_cons, List.not_mem_nil, or_false] at hFirst
      rcases hFirst with rfl | rfl <;> rfl
    rw [← hModel, hSame, hArtifact]
    exact List.mem_map_of_mem hOther

end Files

theorem Options.mem_selectModels {options : Options} {schema : Schema} {model : String × Model} :
    model ∈ options.selectModels schema ↔ model ∈ schema.models ∧ options.includes model.1 :=
  List.mem_filter

/-- The models that are selected have different names that can name directories. -/
theorem Options.selectModels_names {options : Options} {path : Path} {workspace : Workspace}
    {schema : Schema} (hLoad : (loadSchema path workspace).1 = .ok schema) :
    ((options.selectModels schema).map (·.1)).Nodup ∧
      ∀ model ∈ schema.models, isModelName model.1 = true := by
  obtain ⟨value, ⟨text, -, hParse⟩, hRead⟩ := loadSchema_ok_iff.mp hLoad
  have hNames := Schema.ofValue_nodup (Yaml.parse?_distinct hParse) hRead
  refine ⟨?_, fun model hModel => Schema.isModelName_of_mem_models hRead hModel⟩
  exact hNames.sublist ((List.filter_sublist.map _).trans schema.models_sublist)

section Places

variable {tree : FileTree} {directory : Path} {location : Location} {kind : ArtifactKind}
  {name : String}

/-- Where the path of a model's file leads, the mappers directory was passed. -/
theorem FileTree.walks_artifactPath (hName : isModelName name = true) (hDirectory : directory ≠ "")
    (h : tree.locate (artifactPath directory kind name) = .ok (.taken location)) :
    ∃ around left, tree.locate directory = .ok (.taken around) ∧
      tree.Walks true left around
        [Naming.stem name, kind.fileName (Naming.stem name)] (.taken location) := by
  obtain ⟨hFault, hWalk⟩ := FileTree.locate_eq_ok_iff.mp h
  rw [endsWithSlash_artifactPath directory kind hName, components_artifactPath directory kind hName,
    if_neg (by simp), List.append_nil, FileTree.startOf,
    isAbsolute_artifactPath directory kind hName] at hWalk
  obtain ⟨around, left, hBefore, hAfter⟩ := hWalk.before (by simp)
  refine ⟨around, left, FileTree.locate_eq_ok_iff.mpr
    ⟨pathFault?_of_artifactPath directory kind hName hDirectory hFault, ?_⟩, hAfter⟩
  split
  · exact hBefore
  · rw [List.append_nil]
    exact hBefore.of_point_end

/-- In a mappers directory without links, a model's file is found at its stem and its name. -/
theorem FileTree.locate_artifactPath (hName : isModelName name = true) (hDirectory : directory ≠ "")
    {around : Location} (hAround : tree.locate directory = .ok (.taken around))
    (hLinks : ∀ below target, below ≠ [] → tree.node? (around ++ below) ≠ some (.link target))
    (h : tree.locate (artifactPath directory kind name) = .ok (.taken location)) :
    location = around ++ [Naming.stem name, kind.fileName (Naming.stem name)] := by
  obtain ⟨other, left, hOther, hWalk⟩ := walks_artifactPath hName hDirectory h
  obtain rfl : around = other := by simpa [hAround] using hOther
  refine hWalk.straight (fun segment hSegment => ?_) hLinks
  simp only [List.mem_cons, List.not_mem_nil, or_false] at hSegment
  rcases hSegment with rfl | rfl
  · exact Naming.stem_ne_point hName
  · exact ⟨ArtifactKind.fileName_ne (by decide), ArtifactKind.fileName_ne (by decide)⟩

/-- In a mappers directory without links, two files are found at one place just if they are of one
kind and their models have one stem. -/
theorem FileTree.locate_artifactPath_eq_iff {other : ArtifactKind} {second : String}
    {place : Location} (hName : isModelName name = true) (hSecond : isModelName second = true)
    (hDirectory : directory ≠ "") {around : Location}
    (hAround : tree.locate directory = .ok (.taken around))
    (hLinks : ∀ below target, below ≠ [] → tree.node? (around ++ below) ≠ some (.link target))
    (h : tree.locate (artifactPath directory kind name) = .ok (.taken location))
    (hOther : tree.locate (artifactPath directory other second) = .ok (.taken place)) :
    tree.locate (artifactPath directory kind name) =
        tree.locate (artifactPath directory other second) ↔
      Naming.stem name = Naming.stem second ∧ kind = other := by
  rw [h, hOther, locate_artifactPath hName hDirectory hAround hLinks h,
    locate_artifactPath hSecond hDirectory hAround hLinks hOther]
  constructor
  · intro hSame
    have hNames := List.append_cancel_left (Files.Place.taken.inj (Except.ok.inj hSame))
    obtain ⟨hStem, hRest⟩ := List.cons.inj hNames
    have hKind := (List.cons.inj hRest).1
    exact ⟨hStem, ArtifactKind.fileName_injective (hStem ▸ hKind)⟩
  · rintro ⟨hStem, hKind⟩
    rw [hStem, hKind]

end Places

/-- After steps without a failure all files hold their own texts, just if files that are found at
one place have one text. -/
theorem Job.take_holds_iff {steps : List Step} {report result : Report} {workspace after : Workspace}
    (h : take steps report workspace = (.ok result, after))
    (hNodup : ((Step.writes steps).map (·.1)).Nodup) (hReport : report.failures = [])
    (hFailures : result.failures = []) :
    (∀ file ∈ Step.writes steps, after.tree.read file.1.path = .ok file.2.toUTF8) ↔
      ∀ first ∈ Step.writes steps, ∀ second ∈ Step.writes steps,
        after.tree.locate first.1.path = after.tree.locate second.1.path → first.2 = second.2 := by
  constructor
  · intro hHolds first hFirst second hSecond hPlace
    have hRead := hHolds first hFirst
    rw [FileTree.read, hPlace, ← FileTree.read, hHolds second hSecond] at hRead
    exact (String.toByteArray_inj.mp (Except.ok.inj hRead)).symm
  · intro hSame file hFile
    have hSettles := take_settles h file hFile
    simp only [hFailures, List.not_mem_nil, exists_false, false_or] at hSettles
    obtain ⟨location, content, hPlace, hNode⟩ := hSettles
    have hPlaces : result.Places after.tree location file.1 :=
      ⟨by simp [Report.Settles, hFailures], hPlace⟩
    have hContent :=
      (take_file_iff h hNodup (by simp [Report.Settles, hReport]) location content).mp hNode
    rcases hContent with ⟨text, ⟨earlier, artifact, later, hWrites, hLast, -⟩, rfl⟩ | ⟨hNone, -⟩
    · have hText := hSame file hFile (artifact, text) (by simp [hWrites]) (hPlace.trans hLast.2.symm)
      exact FileTree.read_eq_ok_iff.mpr ⟨location, hPlace, hText ▸ hNode⟩
    · exact absurd hPlaces (hNone file hFile)

/-- After steps without a failure, the path of a model's file leads to a place. -/
theorem Job.take_modelFiles {directory : Path} {models : List (String × Model)} {steps : List Step}
    {report result : Report} {workspace after : Workspace}
    (h : take steps report workspace = (.ok result, after))
    (hWrites : Step.writes steps = modelFiles directory models)
    (hModels : ∀ model ∈ models, isModelName model.1 = true) (hFailures : result.failures = []) :
    ∀ file ∈ modelFiles directory models, ∃ place, isModelName file.1.model = true ∧
      after.tree.locate (artifactPath directory file.1.kind file.1.model) = .ok (.taken place) ∧
      file.1.path = artifactPath directory file.1.kind file.1.model := by
  intro file hFile
  obtain ⟨name, model, kind, hModel, hArtifact⟩ := mem_modelFiles hFile
  have hSettles := take_settles h file (hWrites ▸ hFile)
  simp only [hFailures, List.not_mem_nil, exists_false, false_or] at hSettles
  obtain ⟨place, _, hPlace, -⟩ := hSettles
  have hPath : file.1.path = artifactPath directory file.1.kind file.1.model := by
    rw [hArtifact, Artifact.ofModel]
  have hName : file.1.model = name := by rw [hArtifact, Artifact.ofModel]
  exact ⟨place, hName ▸ hModels (name, model) hModel, hPath ▸ hPlace, hPath⟩

/-- A schema run without a failure leaves each selected model its own texts, just if files that are
found at one place have one text. Two files have one path, and below a mappers directory without
links are found at one place, just if they are of one kind and their models have one stem. -/
theorem Generator.generateSchema_ownTexts_iff (generator : Generator) (directory path : Path)
    (options : Options) (workspace after : Workspace) (schema : Schema) (report : Report)
    (hLoad : (loadSchema path workspace).1 = .ok schema)
    (hSelected : options.selectModels schema ≠ [])
    (hRun : generator.generateSchema directory path options workspace = (.ok report, after))
    (hFailures : report.failures = []) :
    let files := modelFiles directory (options.selectModels schema)
    (∀ first ∈ schema.models, ∀ second ∈ schema.models, ∀ kind other,
      artifactPath directory kind first.1 = artifactPath directory other second.1 ↔
        Naming.stem first.1 = Naming.stem second.1 ∧ kind = other) ∧
    ∃ (emitted : FileTree) (location : Location),
      after.tree = generator.formatted directory options emitted ∧
      emitted.locate directory = .ok (.taken location) ∧
      ((∀ file ∈ files, emitted.read file.1.path = .ok file.2.toUTF8) ↔
        ∀ first ∈ files, ∀ second ∈ files,
          emitted.locate first.1.path = emitted.locate second.1.path → first.2 = second.2) ∧
      ((∀ below target, below ≠ [] →
          workspace.tree.node? (location ++ below) ≠ some (.link target)) →
        ∀ first ∈ files, ∀ second ∈ files,
          (emitted.locate first.1.path = emitted.locate second.1.path ↔
            Naming.stem first.1.model = Naming.stem second.1.model ∧
              first.1.kind = second.1.kind)) := by
  intro files
  obtain ⟨hNames, hModels⟩ := options.selectModels_names hLoad
  refine ⟨fun first hFirst second hSecond kind other =>
    artifactPath_eq_iff (hModels first hFirst) (hModels second hSecond), ?_⟩
  have hWay := generator.schemaRun directory path options workspace
  rw [hRun] at hWay
  generalize hEnd : (Except.ok report, after) = run at hWay
  cases hWay with
  | unloaded load => simp [hLoad] at load
  | @empty read _ load empty =>
    obtain rfl : schema = read := by simpa [hLoad] using load
    exact absurd (by simp [Options.selectModels, Schema.models, empty]) hSelected
  | dangling => simp at hEnd
  | @unselected read _ load _ unselected =>
    obtain rfl : schema = read := by simpa [hLoad] using load
    exact absurd unselected hSelected
  | @emitted read passed load _ _ kept =>
    obtain rfl : schema = read := by simpa [hLoad] using load
    obtain ⟨steps, initial, made, emitted, hWrites, hInitial, hDirectory, hLinks, hTake, hTree⟩ :=
      emitModels_ok hEnd.symm
    have hNodup : ((modelFiles directory _).map (·.1)).Nodup := modelFiles_nodup hNames
    rw [← hWrites] at hNodup
    have hFile := Job.take_modelFiles hTake hWrites
      (fun model hModel => hModels model (options.mem_selectModels.mp hModel).1) hFailures
    obtain ⟨location, hLocation⟩ : ∃ location,
        emitted.tree.locate directory = .ok (.taken location) := by
      obtain ⟨model, rest, hModel⟩ := List.exists_cons_of_ne_nil hSelected
      have hFirst : (.ofModel directory .model model.1,
          TypeScript.modelText (.ofModel model.1 model.2)) ∈ files := by
        simp [files, modelFiles, hModel]
      obtain ⟨place, hName, hPlace, -⟩ := hFile _ hFirst
      obtain ⟨location, -, hLocation, -⟩ := FileTree.walks_artifactPath hName hDirectory hPlace
      exact ⟨location, hLocation⟩
    have hOwn := Job.take_holds_iff hTake hNodup hInitial hFailures
    rw [hWrites] at hOwn
    refine ⟨emitted.tree, location, hTree, hLocation, hOwn,
      fun hNone first hFirst second hSecond => ?_⟩
    have hNoLink : ∀ below target, below ≠ [] →
        emitted.tree.node? (location ++ below) ≠ some (.link target) := by
      intro below target hBelow hLink
      refine hNone below target hBelow ?_
      rw [← kept]
      exact (hLinks.trans (Job.take_grows hTake).links) _ _ hLink
    obtain ⟨place, hName, hPlace, hPath⟩ := hFile first hFirst
    obtain ⟨other, hOtherName, hOther, hOtherPath⟩ := hFile second hSecond
    rw [hPath, hOtherPath]
    exact FileTree.locate_artifactPath_eq_iff hName hOtherName hDirectory hLocation hNoLink hPlace
      hOther

/-- A workspace with a schema of two models that have one stem and different fields. -/
def twins : Workspace where
  tree := { entries := [(["schema.tw"], .file (String.toUTF8
    "User:\n  type: model\n  mappings:\n    id:\n      type: string\nuser:\n  type: model\n  mappings:\n    name:\n      type: string\n"))] }

/-- A generator without a formatter. -/
def plainGenerator : Generator := { shell := fun _ _ => .ok .success }

/-- The run succeeds, and one of the models does not get its texts. -/
theorem generateSchema_twins :
    ∃ schema report after, (loadSchema "schema.tw" twins).1 = .ok schema ∧
      Options.selectModels {} schema ≠ [] ∧
      plainGenerator.generateSchema "m" "schema.tw" {} twins = (.ok report, after) ∧
      report.failures = [] ∧
      ∃ first ∈ modelFiles "m" (Options.selectModels {} schema),
        ∃ second ∈ modelFiles "m" (Options.selectModels {} schema),
          after.tree.locate first.1.path = after.tree.locate second.1.path ∧
            first.2 ≠ second.2 := by
  have hLost : ((loadSchema "schema.tw" twins).1.toOption.any fun schema =>
      let run := plainGenerator.generateSchema "m" "schema.tw" {} twins
      run.1.toOption.any fun report => report.failures.isEmpty &&
        (modelFiles "m" (Options.selectModels {} schema)).any fun file =>
          !run.2.tree.holds file.1.path file.2.toUTF8) = true := by decide +kernel
  rcases hLoad : (loadSchema "schema.tw" twins).1 with fault | schema
  · simp [hLoad, Except.toOption] at hLost
  rcases hRun : plainGenerator.generateSchema "m" "schema.tw" {} twins with ⟨fault | report, after⟩
  · simp [hLoad, hRun, Except.toOption] at hLost
  simp only [hLoad, hRun, Except.toOption, Option.any_some, Bool.and_eq_true, List.isEmpty_iff,
    List.any_eq_true, Bool.not_eq_true'] at hLost
  obtain ⟨hFailures, file, hFile, hHolds⟩ := hLost
  have hSelected : Options.selectModels {} schema ≠ [] := by
    intro hNone
    simp [hNone, modelFiles] at hFile
  obtain ⟨-, emitted, location, hTree, -, hOwn, -⟩ :=
    Generator.generateSchema_ownTexts_iff _ _ _ _ _ _ _ _ hLoad hSelected hRun hFailures
  refine ⟨schema, report, after, rfl, hSelected, rfl, hFailures, ?_⟩
  obtain rfl : after.tree = emitted := hTree
  by_contra hNone
  have hRead := hOwn.mpr (fun first hFirst second hSecond hPlace => by
    by_contra hText
    exact hNone ⟨first, hFirst, second, hSecond, hPlace, hText⟩) file hFile
  rw [FileTree.holds_eq_true_iff.mpr hRead] at hHolds
  cases hHolds

end EntityGen
