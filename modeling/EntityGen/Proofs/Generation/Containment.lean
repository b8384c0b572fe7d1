import EntityGen.Proofs.Files.Parent
import EntityGen.Proofs.Generation.Inputs
import EntityGen.Proofs.Generation.Mirror
import Mathlib.Logic.Relation

/-! Where a generation makes changes. A run makes one change of the file tree after the other, and
each is at the mappers directory, around it, at a directory in it, or at a generated file in such a
directory. This is said of the paths as they are written: what they lead to is up to the file tree. -/

namespace EntityGen

open Files (FileFault FileTree IsName IsSegment Location Path)

namespace Files

/-- A change of a file tree at a path. -/
inductive Change where
  | createDir (path : Path)
  | write (path : Path) (content : ByteArray)
  | removeDirAll (path : Path)
  | removeFile (path : Path)

/-- A change that fails leaves no tree; a directory is created only where it is missing. -/
def Change.apply (tree : FileTree) : Change → Except FileFault FileTree
  | .createDir path => tree.createDir path
  | .write path content => tree.write path content
  | .removeDirAll path => tree.removeDirAll path
  | .removeFile path => tree.removeFile path

/-- Changes that are allowed lead from one file tree to another, one after the other. -/
def FileTree.Reaches (allowed : Change → Prop) : FileTree → FileTree → Prop :=
  Relation.ReflTransGen fun before after =>
    ∃ change, allowed change ∧ change.apply before = .ok after

namespace FileTree.Reaches

variable {allowed : Change → Prop} {before after third : FileTree}

theorem refl (tree : FileTree) : Reaches allowed tree tree := Relation.ReflTransGen.refl

theorem trans (h : Reaches allowed before after) (hNext : Reaches allowed after third) :
    Reaches allowed before third :=
  Relation.ReflTransGen.trans h hNext

theorem step {change : Change} (hAllowed : allowed change) (h : change.apply before = .ok after) :
    Reaches allowed before after :=
  Relation.ReflTransGen.single ⟨change, hAllowed, h⟩

/-- Creating a directory with those around it creates directories at the paths around it. -/
theorem createDirAll {path : Path}
    (h : ∀ around ∈ path.ancestors, allowed (.createDir around)) (tree : FileTree) :
    Reaches allowed tree (tree.createDirAll path).1 :=
  createDirs_induction (Reaches allowed) path.ancestors refl trans
    (fun around hAround _ _ hCreate => step (h around hAround) hCreate) tree

end FileTree.Reaches

end Files

open Files (Change)

/-- The kinds of files that a run of a kind generates for a model, in order. -/
def DocumentKind.artifacts : DocumentKind → List ArtifactKind
  | .schema => [.model, .transfer]
  | .forms => [.ruleset]

/-- Changes at or around the mappers directory, at a directory in it, or at a generated file in such
a directory. Paths of directories are told apart by their steps. -/
inductive Contained (kind : DocumentKind) (directory : Path) (names : List String) : Change → Prop
  | around {path : Path} (way : path.steps <+: directory.steps) :
      Contained kind directory names (.createDir path)
  | modelDir {path : Path} {name : String} (known : name ∈ names)
      (way : path.steps = directory.steps ++ [Naming.stem name]) :
      Contained kind directory names (.createDir path)
  | artifact {file : ArtifactKind} {name : String} {content : ByteArray} (known : name ∈ names)
      (ofKind : file ∈ kind.artifacts) :
      Contained kind directory names (.write (artifactPath directory file name) content)
  | staleDir {name : String} (ofKind : kind = .schema) (segment : IsSegment name) :
      Contained kind directory names (.removeDirAll (Path.join directory name))
  | staleRuleset {name : String} (ofKind : kind = .forms) (segment : IsSegment name) :
      Contained kind directory names
        (.removeFile (Path.join (Path.join directory name) (ArtifactKind.ruleset.fileName name)))

variable {kind : DocumentKind} {directory path : Path} {names : List String} {name : String}
  {workspace after : Workspace}

namespace Contained

theorem of_mem_ancestors (h : path ∈ directory.ancestors) :
    Contained kind directory names (.createDir path) :=
  .around (Path.steps_of_mem_ancestors h)

/-- The paths around a directory of a model are its own and those around the mappers directory. -/
theorem of_mem_ancestors_join (hKnown : name ∈ names) (hName : isModelName name = true)
    (h : path ∈ (Path.join directory (Naming.stem name)).ancestors) :
    Contained kind directory names (.createDir path) := by
  have hSegment := Naming.isSegment_stem hName
  have hWay := Path.steps_of_mem_ancestors h
  rw [Path.steps_join directory hSegment.noSlash hSegment.isIdle, List.prefix_concat_iff] at hWay
  rcases hWay with hOwn | hAround
  · exact .modelDir hKnown hOwn
  · exact .around hAround

end Contained

namespace Job

/-- A job makes contained changes only. -/
abbrev StaysContained {α : Type} (kind : DocumentKind) (directory : Path) (names : List String)
    (job : Job α) : Prop :=
  Keeps (FileTree.Reaches (Contained kind directory names)) job

theorem changeTree_contained {blame : FileFault → Fault} (change : Change)
    (h : Contained kind directory names change) :
    StaysContained kind directory names
      (tree >>= fun tree => replaceTree blame (change.apply tree)) := by
  intro workspace
  rw [bind_run_ok (tree_run workspace)]
  rcases hChanged : change.apply workspace.tree with cause | changed
  · rw [replaceTree_run_error rfl]
    exact .refl _
  · rw [replaceTree_run_ok rfl]
    exact .step h hChanged

theorem changeTree_bind_contained {α : Type} {blame : FileFault → Fault} (change : Change)
    {next : Unit → Job α} (h : Contained kind directory names change)
    (hNext : ∀ a, StaysContained kind directory names (next a)) :
    StaysContained kind directory names
      (tree >>= fun tree => replaceTree blame (change.apply tree) >>= next) := by
  rw [← bind_assoc]
  exact .bind .trans (changeTree_contained change h) hNext

theorem createDirAll_contained {blame : FileFault → Fault}
    (h : ∀ around ∈ path.ancestors, Contained kind directory names (.createDir around)) :
    StaysContained kind directory names (createDirAll blame path) := by
  intro workspace
  rw [createDirAll_run]
  exact .createDirAll h workspace.tree

theorem removeModelDirs_contained {stale : List String} (h : ∀ name ∈ stale, IsSegment name) :
    StaysContained .schema directory names (removeModelDirs directory stale) := by
  induction stale with
  | nil => exact fun _ => .refl _
  | cons name rest ih =>
    rw [List.forall_mem_cons] at h
    exact changeTree_bind_contained (.removeDirAll (Path.join directory name))
      (.staleDir rfl h.1) fun _ => .bind .trans (fun _ => .refl _) fun _ => ih h.2

theorem removeFiles_contained {stale : List String} (h : ∀ name ∈ stale, IsSegment name) :
    StaysContained .forms directory names
      (removeFiles directory ArtifactKind.ruleset.fileName stale) := by
  induction stale with
  | nil => exact fun _ => .refl _
  | cons name rest ih =>
    rw [List.forall_mem_cons] at h
    refine .bind .trans (fun _ => .refl _) fun tree => ?_
    split
    · exact changeTree_bind_contained (.removeFile ((Path.join directory name).join
          (ArtifactKind.ruleset.fileName name))) (.staleRuleset rfl h.1) fun _ =>
        .bind .trans (fun _ => .refl _) fun _ => .bind .trans (ih h.2) fun _ _ => .refl _
    · exact ih h.2

theorem createModelDirs_contained {created : List String}
    (h : ∀ stem ∈ created, ∃ name ∈ names, isModelName name = true ∧ Naming.stem name = stem) :
    StaysContained kind directory names (createModelDirs directory created) := by
  induction created with
  | nil => exact fun _ => .refl _
  | cons stem rest ih =>
    rw [List.forall_mem_cons] at h
    obtain ⟨⟨name, hKnown, hName, rfl⟩, hRest⟩ := h
    refine .bind .trans (fun _ => .refl _) fun tree => ?_
    split
    · exact ih hRest
    · exact .bind .trans
        (createDirAll_contained fun _ => Contained.of_mem_ancestors_join hKnown hName) fun _ =>
          .bind .trans (fun _ => .refl _) fun _ => .bind .trans (ih hRest) fun _ _ => .refl _

/-- A file is one that a run of a kind generates for a model of its document. -/
def IsOutput (kind : DocumentKind) (directory : Path) (names : List String) (artifact : Artifact) :
    Prop :=
  ∃ name ∈ names, isModelName name = true ∧ ∃ file ∈ kind.artifacts,
    artifact = .ofModel directory file name

theorem writeIfChanged_contained {file : ArtifactKind} (hKnown : name ∈ names)
    (hName : isModelName name = true) (hFile : file ∈ kind.artifacts) (text : String) :
    StaysContained kind directory names
      (writeIfChanged (artifactPath directory file name) text) := by
  refine .bind .trans (fun _ => .refl _) fun tree => ?_
  split
  · exact fun _ => .refl _
  refine .bind .trans ?_ fun _ _ => .refl _
  rw [writeFile_eq (parent?_artifactPath directory file hName)]
  exact .bind .trans
    (createDirAll_contained fun _ => Contained.of_mem_ancestors_join hKnown hName) fun _ =>
      changeTree_contained (.write (artifactPath directory file name) text.toUTF8)
        (.artifact hKnown hFile)

theorem take_contained {steps : List Step} {report : Report}
    (h : ∀ write ∈ Step.writes steps, IsOutput kind directory names write.1) :
    StaysContained kind directory names (take steps report) := by
  induction steps generalizing report with
  | nil => exact fun _ => .refl _
  | cons step rest ih =>
    cases step with
    | tell notice =>
      rw [take]
      exact .bind .trans (fun _ => .refl _) fun _ => ih h
    | write artifact text =>
      simp only [Step.writes, List.forall_mem_cons] at h
      obtain ⟨⟨name, hKnown, hName, file, hFile, rfl⟩, hRest⟩ := h
      have hWrite : StaysContained kind directory names
          (writeArtifact (.ofModel directory file name) text report) := by
        intro workspace
        have hFileTree : FileTree.Reaches (Contained kind directory names) workspace.tree
            (writeIfChanged (artifactPath directory file name) text workspace).2.tree :=
          writeIfChanged_contained hKnown hName hFile text workspace
        simpa only [writeArtifact_tree, Artifact.ofModel] using hFileTree
      rw [take]
      exact .bind .trans hWrite fun _ => ih hRest

/-- The names found in the mappers directory of a proper tree name something there. -/
theorem isSegment_of_existing {existing : List String} (hProper : workspace.tree.Proper)
    (h : existingModelDirs directory workspace = (.ok existing, after)) :
    after = workspace ∧ ∀ name ∈ existing, IsSegment name := by
  obtain ⟨hSame, ⟨fault, hFault⟩ | ⟨location, found, hLeads, hFound, hMem⟩⟩ :=
    existingModelDirs_stale [] hProper h
  · cases hFault
  · obtain rfl := Except.ok.inj hFound
    refine ⟨hSame, fun name hName => ?_⟩
    have hStale := (hMem name).mp (List.mem_filter.mpr ⟨hName, by simp⟩)
    exact (hProper.names_of_node? hStale.found name (by simp)).isSegment

theorem reconcile_contained {result : Except Fault Reconciliation}
    (hProper : workspace.tree.Proper) (hNames : ∀ name ∈ names, isModelName name = true)
    (h : reconcile directory (canonicalDirs names) workspace = (result, after)) :
    FileTree.Reaches (Contained .schema directory names) workspace.tree after.tree := by
  rcases bind_cases h with ⟨fault, hList, -⟩ | ⟨existing, mid, hList, hRest⟩
  · rw [(existingModelDirs_cases hList).1]
    exact .refl _
  obtain ⟨rfl, hExisting⟩ := isSegment_of_existing hProper hList
  refine Keeps.run (.bind .trans (removeModelDirs_contained fun name hName =>
    hExisting name (List.mem_filter.mp hName).1) fun _ =>
      .bind .trans (createModelDirs_contained fun stem hStem => ?_) fun _ _ => .refl _) hRest
  obtain ⟨name, hName, rfl⟩ := mem_canonicalDirs.mp hStem
  exact ⟨name, hName, hNames name hName, rfl⟩

theorem removeStale_contained {canonical : List String} {result : Except Fault (List String)}
    (hProper : workspace.tree.Proper)
    (h : removeStale directory canonical ArtifactKind.ruleset.fileName workspace =
      (result, after)) :
    FileTree.Reaches (Contained .forms directory names) workspace.tree after.tree := by
  rcases bind_cases h with ⟨fault, hList, -⟩ | ⟨existing, mid, hList, hRest⟩
  · rw [(existingModelDirs_cases hList).1]
    exact .refl _
  obtain ⟨rfl, hExisting⟩ := isSegment_of_existing hProper hList
  exact (removeFiles_contained fun name hName =>
    hExisting name (List.mem_filter.mp hName).1).run hRest

end Job

/-- A text that names one directory or file wherever it stands in a path. -/
structure IsComponent (name : String) : Prop extends IsSegment name where
  noBackslash : '\\' ∉ name.toList
  noPoint : name.toList.head? ≠ some '.'

theorem Naming.isComponent_stem (h : isModelName name = true) : IsComponent (Naming.stem name) where
  toIsSegment := isSegment_stem h
  noBackslash := by
    intro hMem
    have hName := of_mem_stem hMem (by unfold Text.IsLow; decide) (by decide)
    simp [isModelName, hName] at h
  noPoint := stem_noPoint h

variable {generator : Generator} {options : Options} {result : Except Fault Report}

theorem isOutput_of_mem_modelFiles {models : List (String × Model)} {file : Artifact × String}
    (hNames : ∀ model ∈ models, model.1 ∈ names ∧ isModelName model.1 = true)
    (h : file ∈ modelFiles directory models) :
    Job.IsOutput .schema directory names file.1 := by
  obtain ⟨⟨name, model⟩, hModel, hFile⟩ := List.mem_flatMap.mp h
  obtain ⟨hKnown, hName⟩ := hNames _ hModel
  simp only [List.mem_cons, List.not_mem_nil, or_false] at hFile
  rcases hFile with rfl | rfl
  · exact ⟨name, hKnown, hName, .model, by decide, rfl⟩
  · exact ⟨name, hKnown, hName, .transfer, by decide, rfl⟩

theorem isOutput_of_mem_formFiles {imports : TypeScript.ImportPaths}
    {models : List (String × FormModel)} {file : Artifact × String}
    (hNames : ∀ model ∈ models, model.1 ∈ names ∧ isModelName model.1 = true)
    (h : file ∈ formFiles imports directory models) :
    Job.IsOutput .forms directory names file.1 := by
  obtain ⟨⟨name, model⟩, hModel, rfl⟩ := List.mem_map.mp h
  obtain ⟨hKnown, hName⟩ := hNames _ hModel
  exact ⟨name, hKnown, hName, .ruleset, by decide, rfl⟩

namespace Generator

/-- A run made contained changes, and then at most the formatter was run. -/
def Contains (generator : Generator) (kind : DocumentKind) (directory : Path) (options : Options)
    (names : List String) (before after : FileTree) : Prop :=
  ∃ emitted, FileTree.Reaches (Contained kind directory names) before emitted ∧
    (after = emitted ∨ after = generator.formatted directory options emitted)

/-- What is common to the kinds: the mappers directory is created, something is cleared in it, and
steps are taken that write generated files. -/
theorem contains_of_clearing {α : Type} {clear : Job α} {initial : α → Report} {steps : List Step}
    (hProper : workspace.tree.Proper)
    (hClear : ∀ start : Workspace, start.tree.Proper →
      FileTree.Reaches (Contained kind directory names) start.tree (clear start).2.tree)
    (hSteps : ∀ write ∈ Step.writes steps, Job.IsOutput kind directory names write.1)
    (h : (do
      Job.createDirAll (.unwritten directory) directory
      let cleared ← clear
      let report ← Job.take steps (initial cleared)
      generator.format directory options
      return report : Job Report) workspace = (result, after)) :
    generator.Contains kind directory options names workspace.tree after.tree := by
  have hDirectory : Job.StaysContained kind directory names
      (Job.createDirAll (.unwritten directory) directory) :=
    Job.createDirAll_contained fun _ => Contained.of_mem_ancestors
  rcases Job.bind_cases h with ⟨fault, hCreate, -⟩ | ⟨_, start, hCreate, hNext⟩
  · exact ⟨_, hDirectory.run hCreate, .inl rfl⟩
  have hStart := hDirectory.run hCreate
  have hStartProper : start.tree.Proper :=
    Job.createDirAll_cases hCreate ▸ FileTree.createDirAll_proper hProper directory
  have hCleared := hStart.trans (hClear start hStartProper)
  rcases Job.bind_cases hNext with ⟨fault, hRun, -⟩ | ⟨cleared, made, hRun, hTake⟩
  · rw [hRun] at hCleared
    exact ⟨_, hCleared, .inl rfl⟩
  · rw [hRun] at hCleared
    obtain ⟨report, emitted, hTaken, -, hTree⟩ := finish_run hTake
    exact ⟨emitted.tree, hCleared.trans ((Job.take_contained hSteps).run hTaken), .inr hTree⟩

theorem emitModels_contains {schema : Schema} {selected : List (String × Model)}
    (hProper : workspace.tree.Proper) (hNames : ∀ model ∈ schema.models, isModelName model.1 = true)
    (hSelected : ∀ model ∈ selected, model ∈ schema.models)
    (h : generator.emitModels directory options schema selected workspace = (result, after)) :
    generator.Contains .schema directory options (schema.models.map (·.1)) workspace.tree
      after.tree := by
  refine contains_of_clearing hProper (fun start hStart => ?_) (fun write hWrite => ?_) h
  · exact Job.reconcile_contained hStart (by simpa using hNames) rfl
  · rw [Step.writes_ofModels] at hWrite
    refine isOutput_of_mem_modelFiles (fun model hModel => ?_) hWrite
    exact ⟨List.mem_map_of_mem (hSelected model hModel), hNames model (hSelected model hModel)⟩

theorem emitRulesets_contains {forms : Forms} {selected : List (String × FormModel)}
    (hProper : workspace.tree.Proper) (hNames : ∀ model ∈ forms.models, isModelName model.1 = true)
    (hSelected : ∀ model ∈ selected, model ∈ forms.models)
    (h : generator.emitRulesets directory options forms selected workspace = (result, after)) :
    generator.Contains .forms directory options (forms.models.map (·.1)) workspace.tree
      after.tree := by
  refine contains_of_clearing hProper (fun start hStart => ?_) (fun write hWrite => ?_) h
  · exact Job.removeStale_contained hStart rfl
  · rw [Step.writes_ofForms] at hWrite
    refine isOutput_of_mem_formFiles (fun model hModel => ?_) hWrite
    exact ⟨List.mem_map_of_mem (hSelected model hModel), hNames model (hSelected model hModel)⟩

end Generator

/-- A document is accepted by the loader, and its models have these names. -/
def DocumentKind.Accepts (kind : DocumentKind) (value : Yaml.Value) (names : List String) : Prop :=
  match kind with
  | .schema => ∃ schema, Schema.ofValue value = .ok schema ∧ names = schema.models.map (·.1)
  | .forms => ∃ forms, Forms.ofValue value = .ok forms ∧ names = forms.models.map (·.1)

theorem DocumentKind.Accepts.isModelName {value : Yaml.Value} (h : kind.Accepts value names) :
    ∀ name ∈ names, isModelName name = true := by
  intro name hName
  cases kind with
  | schema =>
    obtain ⟨schema, hRead, rfl⟩ := h
    obtain ⟨model, hModel, rfl⟩ := List.mem_map.mp hName
    exact Schema.isModelName_of_mem_models hRead hModel
  | forms =>
    obtain ⟨forms, hRead, rfl⟩ := h
    obtain ⟨model, hModel, rfl⟩ := List.mem_map.mp hName
    exact Forms.isModelName_of_mem_models hRead model hModel

theorem Generator.generateSchema_contains {schema : Schema} (hProper : workspace.tree.Proper)
    (hLoad : (loadSchema path workspace).1 = .ok schema)
    (h : generator.generateSchema directory path options workspace = (result, after)) :
    generator.Contains .schema directory options (schema.models.map (·.1)) workspace.tree
      after.tree := by
  have hWay := generator.schemaRun directory path options workspace
  rw [h] at hWay
  generalize hEnd : (result, after) = run at hWay
  cases hWay with
  | unloaded load kept | empty load _ kept | dangling load _ kept | unselected load _ _ kept =>
    obtain ⟨rfl, rfl⟩ := Prod.mk.inj hEnd
    exact ⟨_, .refl _, .inl kept⟩
  | @emitted read passed load resolved selected kept =>
    obtain rfl : schema = read := by simpa [hLoad] using load
    rw [← kept] at hProper ⊢
    exact emitModels_contains hProper (options.selectModels_names hLoad).2
      (fun model hModel => (Options.mem_selectModels.mp hModel).1) hEnd.symm

theorem Generator.generateForms_contains {forms : Forms} (hProper : workspace.tree.Proper)
    (hLoad : (loadForms path workspace).1 = .ok forms)
    (h : generator.generateForms directory path options workspace = (result, after)) :
    generator.Contains .forms directory options (forms.models.map (·.1)) workspace.tree
      after.tree := by
  have hWay := generator.formsRun directory path options workspace
  rw [h] at hWay
  generalize hEnd : (result, after) = run at hWay
  cases hWay with
  | unloaded load kept | unselected load _ kept =>
    obtain ⟨rfl, rfl⟩ := Prod.mk.inj hEnd
    exact ⟨_, .refl _, .inl kept⟩
  | @emitted read passed load selected kept =>
    obtain rfl : forms = read := by simpa [hLoad] using load
    obtain ⟨value, -, hRead⟩ := loadForms_ok_iff.mp hLoad
    rw [← kept] at hProper ⊢
    exact emitRulesets_contains hProper (Forms.isModelName_of_mem_models hRead)
      (fun model hModel => List.mem_of_mem_filter hModel) hEnd.symm

/-- Names of models in a document that is accepted give single components of paths. And whatever a run
does before the formatter, and however it ends, is done by contained changes, one after the other. -/
theorem Generator.generate_contained (generator : Generator) (kind : DocumentKind)
    (directory path : Path) (options : Options) (workspace after : Workspace)
    (result : Except Fault Report) (value : Yaml.Value) (names : List String)
    (hProper : workspace.tree.Proper) (hDocument : DocumentAt workspace.tree path value)
    (hNames : kind.Accepts value names)
    (hRun : generator.generate kind directory path options workspace = (result, after)) :
    (∀ name ∈ names, IsComponent (Naming.stem name)) ∧
      generator.Contains kind directory options names workspace.tree after.tree := by
  refine ⟨fun name hName => Naming.isComponent_stem (hNames.isModelName name hName), ?_⟩
  cases kind with
  | schema =>
    obtain ⟨schema, hRead, rfl⟩ := hNames
    exact generateSchema_contains hProper (loadSchema_ok_iff.mpr ⟨value, hDocument, hRead⟩) hRun
  | forms =>
    obtain ⟨forms, hRead, rfl⟩ := hNames
    exact generateForms_contains hProper (loadForms_ok_iff.mpr ⟨value, hDocument, hRead⟩) hRun

/-- A run that removes a directory is contained. -/
theorem generate_contained_nested : ∃ value names result after,
    nested.tree.Proper ∧ DocumentAt nested.tree "m/docs/schema.tw" value ∧
      DocumentKind.schema.Accepts value names ∧ names ≠ [] ∧
      plainGenerator.generate .schema "m" "m/docs/schema.tw" {} nested = (result, after) ∧
      after.tree.node? ["m", "docs"] = none ∧
      (∀ name ∈ names, IsComponent (Naming.stem name)) ∧
      plainGenerator.Contains .schema "m" {} names nested.tree after.tree := by
  have hProper : nested.tree.Proper := by decide +kernel
  have hSome : ((loadSchema "m/docs/schema.tw" nested).1.toOption.any fun schema =>
      !(schema.models.map (·.1)).isEmpty) = true := by decide +kernel
  have hGone : ((plainGenerator.generate .schema "m" "m/docs/schema.tw" {} nested).2.tree.node?
      ["m", "docs"]).isNone = true := by decide +kernel
  rcases hLoad : (loadSchema "m/docs/schema.tw" nested).1 with fault | schema
  · simp [hLoad, Except.toOption] at hSome
  obtain ⟨value, hDocument, hRead⟩ := loadSchema_ok_iff.mp hLoad
  have hNames : DocumentKind.schema.Accepts value (schema.models.map (·.1)) :=
    ⟨schema, hRead, rfl⟩
  rcases hRun : plainGenerator.generate .schema "m" "m/docs/schema.tw" {} nested with ⟨result, after⟩
  rw [hRun] at hGone
  refine ⟨value, _, result, after, hProper, hDocument, hNames, ?_, rfl,
    Option.isNone_iff_eq_none.mp hGone,
    Generator.generate_contained _ _ _ _ _ _ _ _ _ _ hProper hDocument hNames hRun⟩
  simpa [hLoad, Except.toOption] using hSome

end EntityGen
