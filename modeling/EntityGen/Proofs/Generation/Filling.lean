import EntityGen.Proofs.Files.Straight
import EntityGen.Proofs.Generation.Artifacts

/-! What runs put into the mappers directory: directories of models, and files of models in them.
Where a path leads to the mappers directory and there are no links below, nothing else changes. -/

namespace EntityGen

open Files (FileTree IsSegment Location Path)

theorem Naming.isSegment_stem {name : String} (h : isModelName name = true) :
    IsSegment (Naming.stem name) :=
  ⟨stem_ne_empty (isModelName_ne_empty h), stem_noSlash h, (stem_ne_point h).1,
    (stem_ne_point h).2⟩

theorem ArtifactKind.isSegment_fileName (kind : ArtifactKind) {stem : String}
    (h : '/' ∉ stem.toList) : IsSegment (kind.fileName stem) :=
  ⟨fileName_ne (by decide), fileName_noSlash kind h, fileName_ne (by decide),
    fileName_ne (by decide)⟩

variable {directory : Path} {location : Location} {canonical : List String}
  {before after : FileTree}

namespace Job

/-- Directories are created where they belong. -/
theorem createModelDirs_fills {names : List String} (hNames : ∀ name ∈ names, name ∈ canonical)
    (hSegments : ∀ name ∈ canonical, IsSegment name) :
    Keeps (FileTree.Fills directory location canonical) (createModelDirs directory names) := by
  induction names with
  | nil => exact fun _ => .refl _
  | cons name rest ih =>
    rw [List.forall_mem_cons] at hNames
    refine .bind .trans (fun _ => .refl _) fun tree => ?_
    split
    · exact ih hNames.2
    · refine .bind .trans (fun workspace => ?_) fun _ =>
        .bind .trans (fun _ => .refl _) fun _ => .bind .trans (ih hNames.2) fun _ _ => .refl _
      rw [createDirAll_run]
      exact .createDirAll_join hNames.1 (hSegments name hNames.1) _

variable {artifact : ArtifactKind} {model : String}

/-- A file of a model is put into the model's directory. -/
theorem write_fills (hName : isModelName model = true) (hStem : Naming.stem model ∈ canonical)
    {content : ByteArray}
    (h : before.write (artifactPath directory artifact model) content = .ok after) :
    FileTree.Fills directory location canonical before after := by
  intro hAnchored
  have hProper := FileTree.write_proper hAnchored.proper h
  obtain ⟨place, -, rfl, hGrows, hPlace⟩ := FileTree.write_ok h
  have hAfter := hAnchored.grows hGrows hProper
  -- No link stands on the way, so that the file is where the segments of its path say.
  obtain rfl := FileTree.locate_artifactPath hName hAfter.leads.notEmpty hAfter.leads.locate
    hAfter.noLink hPlace
  exact FileTree.Fills.put hStem hGrows hProper hAnchored

theorem writeFile_eq {path around : Path} (h : path.parent? = some around) (text : String) :
    writeFile path text = (do
      createDirAll (.unwritten path) around
      let tree ← tree
      replaceTree (.unwritten path) (tree.write path text.toUTF8)) := by
  rw [writeFile, h]

theorem writeFile_fills (hName : isModelName model = true) (hStem : Naming.stem model ∈ canonical)
    (text : String) :
    Keeps (FileTree.Fills directory location canonical)
      (writeFile (artifactPath directory artifact model) text) := by
  intro workspace
  have hFills : FileTree.Fills directory location canonical workspace.tree
      (workspace.tree.createDirAll (Path.join directory (Naming.stem model))).1 :=
    .createDirAll_join hStem (Naming.isSegment_stem hName) workspace.tree
  rw [writeFile_eq (parent?_artifactPath directory artifact hName)]
  rcases hRun : createDirAll (.unwritten (artifactPath directory artifact model))
    (Path.join directory (Naming.stem model)) workspace with ⟨fault | _, made⟩
  all_goals
    have hMade := createDirAll_cases hRun
    rw [← hMade] at hFills
  · rw [bind_run_error hRun]
    exact hFills
  · rw [bind_run_ok hRun, bind_run_ok (tree_run made)]
    rcases hWritten : made.tree.write (artifactPath directory artifact model) text.toUTF8 with
      cause | tree
    · rw [replaceTree_run_error rfl]
      exact hFills
    · rw [replaceTree_run_ok rfl]
      exact hFills.trans (write_fills hName hStem hWritten)

theorem writeIfChanged_fills (hName : isModelName model = true)
    (hStem : Naming.stem model ∈ canonical) (text : String) :
    Keeps (FileTree.Fills directory location canonical)
      (writeIfChanged (artifactPath directory artifact model) text) := by
  intro workspace
  rw [writeIfChanged, bind_run_ok (tree_run workspace)]
  split
  · exact .refl _
  · exact Keeps.bind .trans (writeFile_fills hName hStem text) (fun _ _ => .refl _) workspace

/-- Steps that write files of models fill the directories of these models. -/
theorem take_fills {steps : List Step}
    (hSteps : ∀ write ∈ Step.writes steps, ∃ artifact model, isModelName model = true ∧
      Naming.stem model ∈ canonical ∧ write.1 = .ofModel directory artifact model)
    {report result : Report} {workspace last : Workspace}
    (h : take steps report workspace = (.ok result, last)) :
    FileTree.Fills directory location canonical workspace.tree last.tree := by
  induction steps generalizing report workspace with
  | nil =>
    obtain ⟨-, rfl⟩ := take_nil h
    exact .refl _
  | cons step rest ih =>
    cases step with
    | write artifact text =>
      simp only [Step.writes, List.forall_mem_cons] at hSteps
      obtain ⟨⟨kind, model, hName, hStem, rfl⟩, hRest⟩ := hSteps
      rcases bind_cases h with ⟨fault, -, hFault⟩ | ⟨added, mid, hWrite, hTake⟩
      · cases hFault
      have hFills : FileTree.Fills directory location canonical workspace.tree
          (writeIfChanged (artifactPath directory kind model) text workspace).2.tree :=
        writeIfChanged_fills hName hStem text workspace
      have hTree := writeArtifact_tree (.ofModel directory kind model) text report workspace
      have hPath : (Artifact.ofModel directory kind model).path =
          artifactPath directory kind model := by rw [Artifact.ofModel]
      rw [hWrite, hPath] at hTree
      rw [← hTree] at hFills
      exact hFills.trans (ih hRest hTake)
    | tell notice =>
      obtain ⟨mid, hTree, hRest⟩ := take_tell h
      exact hTree ▸ ih hSteps hRest

end Job

end EntityGen
