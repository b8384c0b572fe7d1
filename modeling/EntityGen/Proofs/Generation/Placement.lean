import EntityGen.Proofs.Generation.Alignment

/-! Writing files into a mappers directory that was brought into line. Each file is found at the stem
of its model and its name, nothing else changes, and a write fails only where the file cannot be. -/

namespace EntityGen

open Files (FileTree IsSegment IsName Location Node Path)

/-- Where a generated file is found in a mappers directory without links. -/
def Artifact.place (artifact : Artifact) (directory : Location) : Location :=
  directory ++ [Naming.stem artifact.model, artifact.kind.fileName (Naming.stem artifact.model)]

/-- Files of one kind whose models have one stem are found at one place, and no others are. -/
theorem Artifact.of_place_eq {first second : Artifact} {directory : Location}
    (h : first.place directory = second.place directory) :
    Naming.stem first.model = Naming.stem second.model ∧ first.kind = second.kind := by
  obtain ⟨hStem, hRest⟩ := List.cons.inj (List.append_cancel_left h)
  have hFile := (List.cons.inj hRest).1
  exact ⟨hStem, ArtifactKind.fileName_injective (hStem ▸ hFile)⟩

/-- A file that belongs into one of some directories in the mappers directory. -/
def Artifact.BelongsTo (artifact : Artifact) (path : Path) (stems : List String) : Prop :=
  isModelName artifact.model = true ∧ Naming.stem artifact.model ∈ stems ∧
    artifact.path = artifactPath path artifact.kind artifact.model

variable {path : Path} {directory : Location} {stems : List String} {artifact : Artifact}
  {text : String} {tree before after third : FileTree} {workspace last : Workspace}

namespace Files.FileTree

/-- A file was put at a location, and nothing else changed. -/
structure Puts (before after : FileTree) (location : Location) (content : ByteArray) : Prop where
  grows : before.Grows after
  proper : after.Proper
  holds : after.node? location = some (.file content)
  others : ∀ other, other ≠ location → after.node? other = before.node? other

theorem Puts.extends (h : before.Puts after (artifact.place directory) text.toUTF8)
    (hArtifact : artifact.BelongsTo path stems) : before.Extends after directory stems where
  grows := h.grows
  others := fun location hLocation => h.others location (hLocation _ hArtifact.2.1 _)

/-- Files were put at their places, where their paths lead, and nothing else changed. -/
structure Placed (before after : FileTree) (directory : Location) (stems : List String)
    (files : List (Artifact × String)) : Prop where
  proper : after.Proper
  additions : before.Extends after directory stems
  holds : ∀ file ∈ files, after.node? (file.1.place directory) = some (.file file.2.toUTF8) ∧
    after.locate file.1.path = .ok (.taken (file.1.place directory))
  others : ∀ location, (∀ file ∈ files, location ≠ file.1.place directory) →
    after.node? location = before.node? location

end Files.FileTree

theorem Artifact.ofModel_belongsTo {kind : ArtifactKind} {name : String}
    (hName : isModelName name = true) (hStem : Naming.stem name ∈ stems) :
    (Artifact.ofModel path kind name).BelongsTo path stems :=
  ⟨hName, hStem, Artifact.ofModel_path path kind name⟩

namespace Artifact.BelongsTo

variable (h : artifact.BelongsTo path stems)
include h

theorem isSegment_fileName :
    IsSegment (artifact.kind.fileName (Naming.stem artifact.model)) :=
  artifact.kind.isSegment_fileName (Naming.stem_noSlash h.1)

theorem path_eq : artifact.path = (Path.join path (Naming.stem artifact.model)).join
    (artifact.kind.fileName (Naming.stem artifact.model)) := by
  rw [h.2.2, artifactPath]

/-- A path that fits is in a directory whose path fits. -/
theorem pathFault?_dir (hFault : FileTree.pathFault? artifact.path = none) :
    FileTree.pathFault? (Path.join path (Naming.stem artifact.model)) = none :=
  Path.pathFault?_of_join (Path.isAbsolute_of_noSlash h.isSegment_fileName.noSlash)
    (Path.join_ne_empty (Naming.isSegment_stem h.1).notEmpty) (h.path_eq ▸ hFault)

/-- A file whose name fits is in a directory whose name fits. -/
theorem isName_stem (hFile : IsName (artifact.kind.fileName (Naming.stem artifact.model))) :
    IsName (Naming.stem artifact.model) := by
  refine (Naming.isSegment_stem h.1).isName ?_
  have hSize := hFile.fits
  simp only [ArtifactKind.fileName, String.utf8ByteSize_append] at hSize
  omega

theorem eq_ofModel : ∃ kind model, isModelName model = true ∧ Naming.stem model ∈ stems ∧
    artifact = .ofModel path kind model :=
  ⟨artifact.kind, artifact.model, h.1, h.2.1, by rw [Artifact.ofModel, ← h.2.2]⟩

/-- A file that is found by its path is found at its place. -/
theorem place_of_locate (hAnchored : tree.Anchored path directory) {location : Location}
    (hPlace : tree.locate artifact.path = .ok (.taken location)) :
    location = artifact.place directory := by
  rw [h.2.2] at hPlace
  exact FileTree.locate_artifactPath h.1 hAnchored.leads.notEmpty hAnchored.leads.locate
    hAnchored.noLink hPlace

theorem parent?_path :
    artifact.path.parent? = some (Path.join path (Naming.stem artifact.model)) := by
  rw [h.2.2]
  exact parent?_artifactPath path artifact.kind h.1

/-- Where the directory of the file is there, nothing is created around it. -/
theorem writeFile_run {around : Location}
    (hThere : workspace.tree.Leads (Path.join path (Naming.stem artifact.model)) around)
    (text : String) : Job.writeFile artifact.path text workspace =
    Job.replaceTree (.unwritten artifact.path)
      (workspace.tree.write artifact.path text.toUTF8) workspace := by
  have hCreate : Job.createDirAll (.unwritten artifact.path)
      (Path.join path (Naming.stem artifact.model)) workspace = (.ok (), workspace) := by
    rw [Job.createDirAll_run, hThere.createDirAll_eq_self]
  rw [Job.writeFile_eq h.parent?_path, Job.bind_run_ok hCreate,
    Job.bind_run_ok (Job.tree_run workspace)]

variable (hLaid : workspace.tree.LaidOut path directory stems)
include hLaid

/-- A file that is written without a fault is at its place, where its path leads. -/
theorem writeFile_puts (hRun : Job.writeFile artifact.path text workspace = (.ok (), last)) :
    workspace.tree.Puts last.tree (artifact.place directory) text.toUTF8 ∧
      last.tree.locate artifact.path = .ok (.taken (artifact.place directory)) := by
  rw [h.writeFile_run (hLaid.dirs _ h.2.1)] at hRun
  rcases hWritten : workspace.tree.write artifact.path text.toUTF8 with cause | made
  · rw [Job.replaceTree_run_error hWritten] at hRun
    cases hRun
  rw [Job.replaceTree_run_ok hWritten] at hRun
  obtain ⟨-, rfl⟩ := Prod.mk.inj hRun
  obtain ⟨location, hRoot, rfl, hGrows, hPlace⟩ := Files.FileTree.write_ok hWritten
  have hProper := Files.FileTree.write_proper hLaid.anchored.proper hWritten
  obtain rfl := h.place_of_locate (hLaid.anchored.grows hGrows hProper) hPlace
  exact ⟨⟨hGrows, hProper, Files.FileTree.node?_put_self hRoot,
    fun _ hOther => Files.FileTree.node?_put_ne hOther⟩, hPlace⟩

/-- A write that does not fail puts the file at its place, where its path leads. -/
theorem write_puts {written : Bool}
    (hRun : Job.writeIfChanged artifact.path text workspace = (.ok written, last)) :
    workspace.tree.Puts last.tree (artifact.place directory) text.toUTF8 ∧
      last.tree.locate artifact.path = .ok (.taken (artifact.place directory)) := by
  rw [Job.writeIfChanged, Job.bind_run_ok (Job.tree_run workspace)] at hRun
  split at hRun
  · rename_i hHolds
    obtain ⟨-, rfl⟩ := Prod.mk.inj hRun
    obtain ⟨location, hPlace, hNode⟩ :=
      Files.FileTree.read_eq_ok_iff.mp (Files.FileTree.holds_eq_true_iff.mp hHolds)
    obtain rfl := h.place_of_locate hLaid.anchored hPlace
    exact ⟨⟨.refl _, hLaid.anchored.proper, hNode, fun _ _ => rfl⟩, hPlace⟩
  · rcases Job.bind_cases hRun with ⟨fault, -, hFault⟩ | ⟨_, mid, hFile, hLast⟩
    · cases hFault
    obtain ⟨-, rfl⟩ := Prod.mk.inj hLast
    exact h.writeFile_puts hLaid hFile

/-- A file can be written, if the path and the name fit and there is no directory in the way. -/
theorem writeFile_succeeds (text : String) (hFault : FileTree.pathFault? artifact.path = none)
    (hFile : IsName (artifact.kind.fileName (Naming.stem artifact.model)))
    (hNode : workspace.tree.node? (artifact.place directory) ≠ some .directory) :
    ∃ last, Job.writeFile artifact.path text workspace = (.ok (), last) := by
  have hWhere : directory ++ [Naming.stem artifact.model] ++
      [artifact.kind.fileName (Naming.stem artifact.model)] = artifact.place directory :=
    List.append_assoc _ _ _
  have hLink : ∀ target, workspace.tree.node? (artifact.place directory) ≠ some (.link target) :=
    fun target => hLaid.anchored.noLink _ target (by simp)
  have hPlace := (hLaid.dirs _ h.2.1).locate_join hFile (h.path_eq ▸ hFault) (hWhere ▸ hLink)
  rw [← h.path_eq, hWhere] at hPlace
  have hSlash : artifact.path.endsWithSlash = false := by
    rw [h.2.2]
    exact endsWithSlash_artifactPath path artifact.kind h.1
  have hWritten : ∃ made, workspace.tree.write artifact.path text.toUTF8 = .ok made := by
    rw [FileTree.write, hSlash, if_neg (by simp), hPlace]
    rcases hFound : workspace.tree.node? (artifact.place directory) with _ | _ | content | target
    · exact ⟨_, rfl⟩
    · exact absurd hFound hNode
    · simp only [Option.isSome_some, if_true, hFound]
      exact ⟨_, rfl⟩
    · exact absurd hFound (hLink target)
  obtain ⟨made, hWritten⟩ := hWritten
  exact ⟨{ workspace with tree := made },
    by rw [h.writeFile_run (hLaid.dirs _ h.2.1), Job.replaceTree_run_ok hWritten]⟩

/-- A write does not fail, if the path and the name fit and there is no directory in the way. -/
theorem write_succeeds (text : String) (hFault : FileTree.pathFault? artifact.path = none)
    (hFile : IsName (artifact.kind.fileName (Naming.stem artifact.model)))
    (hNode : workspace.tree.node? (artifact.place directory) ≠ some .directory) :
    ∃ written, (Job.writeIfChanged artifact.path text workspace).1 = .ok written := by
  rw [Job.writeIfChanged, Job.bind_run_ok (Job.tree_run workspace)]
  split
  · exact ⟨false, rfl⟩
  obtain ⟨made, hWrite⟩ := h.writeFile_succeeds hLaid text hFault hFile hNode
  rw [Job.bind_run_ok hWrite]
  exact ⟨true, rfl⟩

end Artifact.BelongsTo

namespace Job

variable {steps : List Step} {report result : Report}

/-- After steps without a failure each file is at its place, if files with one place have one text,
and nothing else changed. -/
theorem take_places (hLaid : workspace.tree.LaidOut path directory stems)
    (hSteps : ∀ write ∈ Step.writes steps, write.1.BelongsTo path stems)
    (hOne : ∀ first ∈ Step.writes steps, ∀ second ∈ Step.writes steps,
      first.1.place directory = second.1.place directory → first.2 = second.2)
    (h : take steps report workspace = (.ok result, last)) (hFailures : result.failures = []) :
    workspace.tree.Placed last.tree directory stems (Step.writes steps) := by
  induction steps generalizing report workspace with
  | nil =>
    obtain ⟨-, rfl⟩ := take_nil h
    exact ⟨hLaid.anchored.proper, .refl _, List.forall_mem_nil _, fun _ _ => rfl⟩
  | cons step rest ih =>
    cases step with
    | tell notice =>
      obtain ⟨mid, hTree, hRest⟩ := take_tell h
      exact hTree ▸ ih (hTree ▸ hLaid) hSteps hOne hRest
    | write artifact text =>
      simp only [Step.writes, List.forall_mem_cons] at hSteps hOne
      obtain ⟨outcome, written, mid, hWrite, hTree, hRest⟩ := take_write_run h
      rcases outcome with fault | changed
      · have hFailed := (take_failures hRest).1 (artifact, fault) (by simp [add_failures])
        rw [hFailures] at hFailed
        cases hFailed
      obtain ⟨hPuts, hPlace⟩ := hSteps.1.write_puts hLaid hWrite
      rw [← hTree] at hPuts hPlace
      have hMid := hLaid.grows hPuts.grows hPuts.proper
      obtain ⟨hProper, hExtends, hFiles, hOthers⟩ :=
        ih hMid hSteps.2 (fun first hFirst second hSecond =>
          (hOne.2 first hFirst).2 second hSecond) hRest
      refine ⟨hProper, (hPuts.extends hSteps.1).trans hExtends,
        List.forall_mem_cons.mpr ⟨⟨?_, ?_⟩, hFiles⟩, ?_⟩
      · -- A later file with the same place has the same text.
        by_cases hLater : ∃ write ∈ Step.writes rest,
            artifact.place directory = write.1.place directory
        · obtain ⟨write, hWrite, hSame⟩ := hLater
          rw [hSame, hOne.1.2 write hWrite hSame]
          exact (hFiles write hWrite).1
        · rw [hOthers _ fun write hWrite hSame => hLater ⟨write, hWrite, hSame⟩]
          exact hPuts.holds
      · exact hExtends.grows.within.locate hPlace
      · intro location hLocation
        rw [Step.writes, List.forall_mem_cons] at hLocation
        rw [hOthers location hLocation.2, hPuts.others location hLocation.1]

/-- Steps whose files have their texts already change nothing. -/
theorem take_unchanged (report : Report)
    (hFiles : ∀ write ∈ Step.writes steps,
      workspace.tree.read write.1.path = .ok write.2.toUTF8) :
    ∃ last, take steps report workspace = (.ok { report with
        unchanged := report.unchanged ++ (Step.writes steps).map (·.1) }, last) ∧
      last.tree = workspace.tree := by
  induction steps generalizing report workspace with
  | nil => exact ⟨workspace, by simp [Step.writes, take], rfl⟩
  | cons step rest ih =>
    cases step with
    | tell notice =>
      rw [take, bind_run_ok (tell_run _ _)]
      exact @ih { workspace with notices := workspace.notices ++ [notice] } report hFiles
    | write artifact text =>
      simp only [Step.writes, List.forall_mem_cons] at hFiles
      have hWrite : writeIfChanged artifact.path text workspace = (.ok false, workspace) := by
        rw [writeIfChanged, bind_run_ok (tree_run workspace),
          if_pos (Files.FileTree.holds_eq_true_iff.mpr hFiles.1)]
        rfl
      have hArtifact : writeArtifact artifact text report workspace =
          (.ok (report.add artifact (.ok false)), workspace) := by
        rw [writeArtifact, bind_run_ok (outcome_run _ _), hWrite]
        rfl
      rw [take, bind_run_ok hArtifact]
      obtain ⟨last, hRun, hTree⟩ := @ih workspace (report.add artifact (.ok false)) hFiles.2
      refine ⟨last, ?_, hTree⟩
      rw [hRun]
      simp [Report.add, Step.writes]

/-- Steps have no failure, if the paths and names of the files fit and no directory is in the way. -/
theorem take_succeeds (report : Report) (hLaid : workspace.tree.LaidOut path directory stems)
    (hSteps : ∀ write ∈ Step.writes steps, write.1.BelongsTo path stems)
    (hFits : ∀ write ∈ Step.writes steps, FileTree.pathFault? write.1.path = none ∧
      IsName (write.1.kind.fileName (Naming.stem write.1.model)))
    (hNodes : ∀ write ∈ Step.writes steps,
      workspace.tree.node? (write.1.place directory) ≠ some .directory) :
    ∃ result last, take steps report workspace = (.ok result, last) ∧
      result.failures = report.failures := by
  induction steps generalizing report workspace with
  | nil => exact ⟨report, workspace, rfl, rfl⟩
  | cons step rest ih =>
    cases step with
    | tell notice =>
      rw [take, bind_run_ok (tell_run _ _)]
      exact ih report hLaid hSteps hFits hNodes
    | write artifact text =>
      simp only [Step.writes, List.forall_mem_cons] at hSteps hFits hNodes
      obtain ⟨written, hOk⟩ :=
        hSteps.1.write_succeeds hLaid text hFits.1.1 hFits.1.2 hNodes.1
      rcases hWrite : writeIfChanged artifact.path text workspace with ⟨outcome, made⟩
      obtain rfl : outcome = .ok written := by simpa [hWrite] using hOk
      obtain ⟨hPuts, -⟩ := hSteps.1.write_puts hLaid hWrite
      have hArtifact : writeArtifact artifact text report workspace =
          (.ok (report.add artifact (.ok written)), made) := by
        rw [writeArtifact, bind_run_ok (outcome_run _ _), hWrite]
        rfl
      rw [take, bind_run_ok hArtifact]
      have hNext : ∀ write ∈ Step.writes rest,
          made.tree.node? (write.1.place directory) ≠ some .directory := by
        intro write hWrite
        by_cases hSame : write.1.place directory = artifact.place directory
        · rw [hSame, hPuts.holds]
          simp
        · rw [hPuts.others _ hSame]
          exact hNodes.2 write hWrite
      obtain ⟨result, last, hRun, hFailures⟩ :=
        @ih _ (report.add artifact (.ok written)) (hLaid.grows hPuts.grows hPuts.proper) hSteps.2
          hFits.2 hNext
      exact ⟨result, last, hRun, hFailures.trans (add_failures report artifact (.ok written))⟩

end Job

end EntityGen
