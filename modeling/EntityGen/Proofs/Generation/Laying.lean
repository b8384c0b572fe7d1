import EntityGen.Proofs.Generation.Placement

/-! Files of models that are written one after the other where the directories of the models may be
missing. Below a mappers directory without links a write creates the directory of its model and puts
the file into it, and so a location holds what was last put there, or else what it held before. A
write fails just if its path leads to no file in the end. -/

namespace EntityGen

open Files (FileTree IsSegment IsName Location Node Path)

/-- What a written file puts at a location: the file in its place, and the directory around it. -/
def Artifact.lays (directory : Location) (file : Artifact × String) (location : Location) :
    Option Node :=
  if location = file.1.place directory then some (.file file.2.toUTF8)
  else if location = directory ++ [Naming.stem file.1.model] then some .directory
  else none

/-- What files that are written one after the other put at a location: what the last one puts there. -/
def layout (directory : Location) : List (Artifact × String) → Location → Option Node
  | [], _ => none
  | file :: rest, location => (layout directory rest location).or (Artifact.lays directory file location)

section

variable {directory location : Location} {node : Node} {files : List (Artifact × String)}

/-- What is put at a location is the file whose place it is, or the directory around a file. -/
theorem layout_cases (h : layout directory files location = some node) :
    ∃ file ∈ files, location = file.1.place directory ∧ node = .file file.2.toUTF8 ∨
      location = directory ++ [Naming.stem file.1.model] ∧ node = .directory := by
  induction files with
  | nil => cases h
  | cons file rest ih =>
    rw [List.exists_mem_cons_iff]
    rw [layout, Option.or_eq_some_iff] at h
    rcases h with hLater | ⟨-, hHere⟩
    · exact .inr (ih hLater)
    · refine .inl ?_
      rw [Artifact.lays] at hHere
      split at hHere
      · exact .inl ⟨‹_›, (Option.some.inj hHere).symm⟩
      · split at hHere
        · exact .inr ⟨‹_›, (Option.some.inj hHere).symm⟩
        · cases hHere

theorem layout_eq_none_iff : layout directory files location = none ↔
    ∀ file ∈ files, location ≠ file.1.place directory ∧
      location ≠ directory ++ [Naming.stem file.1.model] := by
  induction files with
  | nil => simp [layout]
  | cons file rest ih =>
    have hLays : Artifact.lays directory file location = none ↔
        location ≠ file.1.place directory ∧ location ≠ directory ++ [Naming.stem file.1.model] := by
      rw [Artifact.lays]
      split
      · simp [*]
      · split <;> simp [*]
    rw [layout, Option.or_eq_none_iff, ih, hLays, List.forall_mem_cons, and_comm]

end

namespace Files.FileTree

variable {before after third tree made : FileTree} {path : Path} {directory : Location}
  {name : String} {files others : List (Artifact × String)}

/-- Files were put in their places and directories around them, and nothing else changed. -/
structure Overlaid (before after : FileTree) (directory : Location)
    (files : List (Artifact × String)) : Prop where
  proper : after.Proper
  grows : before.Grows after
  node : ∀ location,
    after.node? location = (layout directory files location).or (before.node? location)

namespace Overlaid

theorem refl (hProper : tree.Proper) : tree.Overlaid tree directory [] :=
  ⟨hProper, .refl tree, fun _ => rfl⟩

theorem cons {file : Artifact × String} (h : before.Overlaid after directory [file])
    (hNext : after.Overlaid third directory files) :
    before.Overlaid third directory (file :: files) where
  proper := hNext.proper
  grows := h.grows.trans hNext.grows
  node := by
    intro location
    rw [hNext.node, h.node, layout, layout, layout, Option.none_or, Option.or_assoc]

/-- A file stays as it is unless another one is put in its place. -/
theorem file_kept {place : Location} {content : ByteArray}
    (h : before.Overlaid after directory files)
    (hNode : before.node? place = some (.file content))
    (hOther : ∀ file ∈ files, place ≠ file.1.place directory) :
    after.node? place = some (.file content) := by
  rw [h.node]
  rcases hLayout : layout directory files place with _ | node
  · exact hNode
  obtain ⟨file, hFile, ⟨hPlace, -⟩ | ⟨-, rfl⟩⟩ := layout_cases hLayout
  · exact absurd hPlace (hOther file hFile)
  · -- A file never becomes a directory.
    obtain ⟨other, hAfter⟩ := h.grows.within.file hNode
    rw [h.node, hLayout, Option.some_or] at hAfter
    cases hAfter

end Overlaid

namespace Anchored

variable (h : tree.Anchored path directory)
include h

/-- Where a directory is created for a name, nothing else changes. -/
theorem createDirAll_join (hName : IsSegment name)
    (hMade : tree.createDirAll (Path.join path name) = (made, none)) :
    made.LaidOut path directory [name] ∧ tree.Grows made ∧ ∀ location, made.node? location =
      if location = directory ++ [name] then some .directory else tree.node? location := by
  have hGains := tree.createDirAll_gains (Path.join path name)
  have hProper := createDirAll_proper h.proper (Path.join path name)
  rw [hMade] at hGains hProper
  have hAnchored := h.grows hGains.grows hProper
  have hLink : ∀ target, made.node? (directory ++ [name]) ≠ some (.link target) := fun target =>
    hAnchored.noLink _ target (by simp)
  obtain ⟨place, hLeads⟩ := createDirAll_leads (Path.join_ne_empty hName.notEmpty) hMade
  obtain rfl := hAnchored.leads.place_of_join hName hLink hLeads.locate
  refine ⟨⟨hAnchored, by simpa using hLeads⟩, hGains.grows, fun location => ?_⟩
  split
  · rename_i hOwn
    rw [hOwn, hLeads.directory]
  rename_i hOther
  rcases hGains.node location with hSame | ⟨hFree, hNew⟩
  · exact hSame
  -- What was created is passed by the path, which passes directories only that were there before.
  have hMade : (tree.createDirAll (Path.join path name)).1 = made := by rw [hMade]
  have hPasses : made.OnWay (Path.join path name) location :=
    createDirAll_passes hFree (hMade ▸ hNew) (hMade ▸ .refl made)
  rcases hPasses.of_join hGains.grows.sameLinks.symm hGains.workingDir.symm h.leads hName.noSlash
    hName.notEmpty hName.notHere hName.notBack fun target => h.noLink _ target (by simp) with
    hOn | hOwn
  · rw [hOn.isDirectory] at hFree
    cases hFree
  · exact absurd hOwn hOther

/-- The directory of a name can be created, if the path and the name fit and no file is in the way. -/
theorem createDirAll_join_ok (hName : IsName name)
    (hFault : pathFault? (Path.join path name) = none)
    (hFile : ∀ content, tree.node? (directory ++ [name]) ≠ some (.file content)) :
    (tree.createDirAll (Path.join path name)).2 = none := by
  rcases hNode : tree.node? (directory ++ [name]) with _ | _ | content | target
  · obtain ⟨around, hAround⟩ := (Path.join path name).ancestors_eq_cons
    have hPlace := h.leads.locateEntry_join hName hFault
    rw [hNode] at hPlace
    have hCreate : tree.createDir (Path.join path name) =
        .ok (tree.put (directory ++ [name]) .directory) := by
      rw [createDir, hPlace]
      rfl
    have hEmpty : Path.join path name ≠ "" := Path.join_ne_empty hName.notEmpty
    rw [createDirAll, hAround, createDirs, if_neg (by simpa using hEmpty), hCreate]
  · rw [(h.leads.join hName hFault hNode).createDirAll_eq_self]
  · exact absurd hNode (hFile content)
  · exact absurd hNode (h.noLink _ target (by simp))

end Anchored

end Files.FileTree

variable {path : Path} {directory : Location} {stems : List String} {artifact : Artifact}
  {text : String} {node : Node} {tree before after made : FileTree} {workspace last : Workspace}

namespace Artifact

/-- The path and the name of a file fit, and in a file tree nothing is in the way: there is no file in
place of the directory of its model, and no directory in its own. -/
structure Writable (artifact : Artifact) (directory : Location) (tree : FileTree) : Prop where
  fault : FileTree.pathFault? artifact.path = none
  name : IsName (artifact.kind.fileName (Naming.stem artifact.model))
  noFile : ∀ content, tree.node? (directory ++ [Naming.stem artifact.model]) ≠ some (.file content)
  noDirectory : tree.node? (artifact.place directory) ≠ some .directory

/-- The directory of a model is no place of a file. -/
theorem stem_ne_place (artifact : Artifact) (stem : String) :
    directory ++ [stem] ≠ artifact.place directory := by
  simp [place]

namespace BelongsTo

variable (h : artifact.BelongsTo path stems)
include h

theorem isSegment_stem : IsSegment (Naming.stem artifact.model) := Naming.isSegment_stem h.1

/-- A file is written as it is when the directory of its model was created before. -/
theorem writeFile_created (hAnchored : workspace.tree.Anchored path directory)
    (hMade : workspace.tree.createDirAll (Path.join path (Naming.stem artifact.model)) =
      (made, none)) :
    Job.writeFile artifact.path text workspace =
      Job.writeFile artifact.path text { workspace with tree := made } := by
  obtain ⟨hLaid, -, -⟩ := hAnchored.createDirAll_join h.isSegment_stem hMade
  have hThere : ({ workspace with tree := made } : Workspace).tree.Leads
      (Path.join path (Naming.stem artifact.model)) (directory ++ [Naming.stem artifact.model]) :=
    hLaid.dirs _ List.mem_cons_self
  have hCreate : Job.createDirAll (.unwritten artifact.path)
      (Path.join path (Naming.stem artifact.model)) workspace =
        (.ok (), { workspace with tree := made }) := by
    rw [Job.createDirAll_run, hMade]
  rw [h.writeFile_run hThere,
    Job.writeFile_eq h.parent?_path, Job.bind_run_ok hCreate, Job.bind_run_ok (Job.tree_run _)]

/-- Where a file is found, the directory of its model is there, and its path and names fit. -/
theorem found (hAnchored : tree.Anchored path directory)
    (hPlace : tree.locate artifact.path = .ok (.taken (artifact.place directory))) :
    FileTree.pathFault? artifact.path = none ∧ IsName (Naming.stem artifact.model) ∧
      IsName (artifact.kind.fileName (Naming.stem artifact.model)) ∧
      tree.node? (directory ++ [Naming.stem artifact.model]) = some .directory := by
  refine ⟨(Files.FileTree.locate_eq_ok_iff.mp hPlace).1, ?_⟩
  rw [h.2.2] at hPlace
  obtain ⟨around, left, hAround, hWalk⟩ :=
    FileTree.walks_artifactPath h.1 hAnchored.leads.notEmpty hPlace
  obtain rfl : directory = around := by simpa [hAnchored.leads.locate] using hAround
  have hStem := h.isSegment_stem
  have hFile := h.isSegment_fileName
  generalize artifact.kind.fileName (Naming.stem artifact.model) = file at hFile hWalk ⊢
  generalize Naming.stem artifact.model = stem at hStem hWalk ⊢
  cases hWalk with
  | point => exact absurd rfl hStem.notHere
  | back => exact absurd rfl hStem.notBack
  | link _ node => exact absurd node (hAnchored.noLink _ _ (by simp))
  | directory step node onward =>
    have hStep := onward.isStep hFile.notHere hFile.notBack
    exact ⟨hStem.isName step.fits, hFile.isName hStep.fits, node⟩

/-- What is at the place of a file is found there, if the directory of its model is there too. -/
theorem locate_of_node (hAnchored : tree.Anchored path directory)
    (hStem : tree.node? (directory ++ [Naming.stem artifact.model]) = some .directory)
    (hFault : FileTree.pathFault? artifact.path = none)
    (hNode : tree.node? (artifact.place directory) = some node) :
    tree.locate artifact.path = .ok (.taken (artifact.place directory)) := by
  have hWhere : directory ++ [Naming.stem artifact.model] ++
      [artifact.kind.fileName (Naming.stem artifact.model)] = artifact.place directory :=
    List.append_assoc _ _ _
  have hName := hAnchored.proper.names_of_node? hStem (Naming.stem artifact.model) (by simp)
  have hFile := hAnchored.proper.names_of_node? hNode
    (artifact.kind.fileName (Naming.stem artifact.model)) (by simp [place])
  have hInner := hAnchored.leads.join hName (h.pathFault?_dir hFault) hStem
  rw [h.path_eq] at hFault ⊢
  rw [hInner.locate_join hFile hFault, hWhere, hNode]
  · rfl
  · rw [hWhere]
    exact fun target => hAnchored.noLink _ target (by simp)

/-- A write that does not fail puts the file at its place and the directory around it, and nothing
else changes. -/
theorem write_overlays {written : Bool} (hAnchored : workspace.tree.Anchored path directory)
    (hRun : Job.writeIfChanged artifact.path text workspace = (.ok written, last)) :
    workspace.tree.Overlaid last.tree directory [(artifact, text)] := by
  rw [Job.writeIfChanged, Job.bind_run_ok (Job.tree_run workspace)] at hRun
  split at hRun
  · rename_i hHolds
    obtain ⟨-, rfl⟩ := Prod.mk.inj hRun
    obtain ⟨location, hPlace, hNode⟩ :=
      Files.FileTree.read_eq_ok_iff.mp (Files.FileTree.holds_eq_true_iff.mp hHolds)
    obtain rfl := h.place_of_locate hAnchored hPlace
    have hStem := (h.found hAnchored hPlace).2.2.2
    refine ⟨hAnchored.proper, .refl _, fun location => ?_⟩
    rw [layout, layout, Option.none_or, lays]
    split
    · rename_i hOwn
      rw [hOwn, hNode, Option.some_or]
    · split
      · rename_i hOwn
        rw [hOwn, hStem, Option.some_or]
      · rw [Option.none_or]
  · rcases Job.bind_cases hRun with ⟨fault, -, hFault⟩ | ⟨_, mid, hFile, hLast⟩
    · cases hFault
    obtain ⟨-, rfl⟩ := Prod.mk.inj hLast
    rcases hMade : workspace.tree.createDirAll (Path.join path (Naming.stem artifact.model)) with
      ⟨made, _ | cause⟩
    · obtain ⟨hLaid, hGrows, hNode⟩ := hAnchored.createDirAll_join h.isSegment_stem hMade
      have hOwn : artifact.BelongsTo path [Naming.stem artifact.model] := ⟨h.1, by simp, h.2.2⟩
      rw [h.writeFile_created hAnchored hMade] at hFile
      have hThere : ({ workspace with tree := made } : Workspace).tree.LaidOut path directory
          [Naming.stem artifact.model] := hLaid
      obtain ⟨hPuts, -⟩ := hOwn.writeFile_puts hThere hFile
      refine ⟨hPuts.proper, hGrows.trans hPuts.grows, fun location => ?_⟩
      rw [layout, layout, Option.none_or, lays]
      split
      · rename_i hPlace
        rw [hPlace, hPuts.holds, Option.some_or]
      · rename_i hOther
        rw [hPuts.others location hOther, hNode]
        split
        · rw [Option.some_or]
        · rw [Option.none_or]
    · rw [Job.writeFile_eq h.parent?_path] at hFile
      have hCreate : Job.createDirAll (.unwritten artifact.path)
          (Path.join path (Naming.stem artifact.model)) workspace =
            (.error (.unwritten artifact.path cause), { workspace with tree := made }) := by
        rw [Job.createDirAll_run, hMade]
      rw [Job.bind_run_error hCreate] at hFile
      cases hFile

/-- Writing a file fills the directory of its model, whatever comes of it. -/
theorem writeIfChanged_fills {outcome : Except Fault Bool}
    (hRun : Job.writeIfChanged artifact.path text workspace = (outcome, last)) :
    FileTree.Fills path directory stems workspace.tree last.tree := by
  have hKeeps : Job.Keeps (FileTree.Fills path directory stems)
      (Job.writeIfChanged (artifactPath path artifact.kind artifact.model) text) :=
    Job.writeIfChanged_fills h.1 h.2.1 text
  rw [← h.2.2] at hKeeps
  exact hKeeps.run hRun

/-- A file that is there in the end could be written before. -/
theorem writable_of_found (hAnchored : workspace.tree.Anchored path directory)
    (hGrows : workspace.tree.Grows tree) (hProper : tree.Proper) {place : Location}
    {content : ByteArray} (hPlace : tree.locate artifact.path = .ok (.taken place))
    (hNode : tree.node? place = some (.file content)) :
    artifact.Writable directory workspace.tree := by
  have hAfter := hAnchored.grows hGrows hProper
  obtain rfl := h.place_of_locate hAfter hPlace
  obtain ⟨hFault, -, hFile, hDirectory⟩ := h.found hAfter hPlace
  refine ⟨hFault, hFile, fun content hBefore => ?_, fun hBefore => ?_⟩
  · obtain ⟨other, hOther⟩ := hGrows.within.file hBefore
    rw [hDirectory] at hOther
    cases hOther
  · rw [hGrows.within.directory hBefore] at hNode
    cases hNode

/-- A write does not fail if the path and the name fit and there is nothing in the way. -/
theorem write_succeeds_of_writable (text : String)
    (hAnchored : workspace.tree.Anchored path directory)
    (hWritable : artifact.Writable directory workspace.tree) :
    ∃ written, (Job.writeIfChanged artifact.path text workspace).1 = .ok written := by
  have hMade := hAnchored.createDirAll_join_ok (h.isName_stem hWritable.name)
    (h.pathFault?_dir hWritable.fault) hWritable.noFile
  rcases hCreated : workspace.tree.createDirAll (Path.join path (Naming.stem artifact.model)) with
    ⟨made, fault?⟩
  obtain rfl : fault? = none := by simpa [hCreated] using hMade
  obtain ⟨hLaid, -, hSame⟩ := hAnchored.createDirAll_join h.isSegment_stem hCreated
  have hOwn : artifact.BelongsTo path [Naming.stem artifact.model] := ⟨h.1, by simp, h.2.2⟩
  rw [Job.writeIfChanged, Job.bind_run_ok (Job.tree_run workspace)]
  split
  · exact ⟨false, rfl⟩
  have hThere : ({ workspace with tree := made } : Workspace).tree.LaidOut path directory
      [Naming.stem artifact.model] := hLaid
  obtain ⟨last, hWrite⟩ := hOwn.writeFile_succeeds hThere text hWritable.fault hWritable.name (by
      rw [hSame, if_neg (Ne.symm (artifact.stem_ne_place _))]
      exact hWritable.noDirectory)
  rw [← h.writeFile_created hAnchored hCreated] at hWrite
  rw [Job.bind_run_ok hWrite]
  exact ⟨true, rfl⟩

end BelongsTo

end Artifact

namespace Job

variable {steps : List Step} {report result : Report}

/-- After steps without a failure the files are in their places with the directories around them, and
nothing else changed. -/
theorem take_overlays (hAnchored : workspace.tree.Anchored path directory)
    (hSteps : ∀ write ∈ Step.writes steps, write.1.BelongsTo path stems)
    (h : take steps report workspace = (.ok result, last)) (hFailures : result.failures = []) :
    workspace.tree.Overlaid last.tree directory (Step.writes steps) := by
  induction steps generalizing report workspace with
  | nil =>
    obtain ⟨-, rfl⟩ := take_nil h
    exact .refl hAnchored.proper
  | cons step rest ih =>
    cases step with
    | tell notice =>
      obtain ⟨mid, hTree, hRest⟩ := take_tell h
      exact hTree ▸ ih (hTree ▸ hAnchored) hSteps hRest
    | write artifact text =>
      simp only [Step.writes, List.forall_mem_cons] at hSteps
      obtain ⟨outcome, written, mid, hWrite, hTree, hRest⟩ := take_write_run h
      rcases outcome with fault | changed
      · have hFailed := (take_failures hRest).1 (artifact, fault) (by simp [add_failures])
        rw [hFailures] at hFailed
        cases hFailed
      have hOverlaid := hSteps.1.write_overlays hAnchored hWrite
      rw [← hTree] at hOverlaid
      have hMid := hAnchored.grows hOverlaid.grows hOverlaid.proper
      exact hOverlaid.cons (ih hMid hSteps.2 hRest)

/-- After steps were taken, the paths of files that could not be written lead to no file. -/
theorem take_failed (hAnchored : workspace.tree.Anchored path directory)
    (hSteps : ∀ write ∈ Step.writes steps, write.1.BelongsTo path stems)
    (h : take steps report workspace = (.ok result, last)) {failure : Artifact × Fault}
    (hFailure : failure ∈ result.failures) (hNew : failure ∉ report.failures) :
    last.tree.hasFile failure.1.path = false := by
  induction steps generalizing report workspace with
  | nil =>
    obtain ⟨rfl, -⟩ := take_nil h
    exact absurd hFailure hNew
  | cons step rest ih =>
    cases step with
    | tell notice =>
      obtain ⟨mid, hTree, hRest⟩ := take_tell h
      exact ih (hTree ▸ hAnchored) hSteps hRest hNew
    | write artifact text =>
      have hOutputs : ∀ write ∈ Step.writes (.write artifact text :: rest), ∃ kind model,
          isModelName model = true ∧ Naming.stem model ∈ stems ∧ write.1 = .ofModel path kind model :=
        fun write hWrite => (hSteps write hWrite).eq_ofModel
      simp only [Step.writes, List.forall_mem_cons] at hSteps
      obtain ⟨outcome, written, mid, hWrite, hTree, hRest⟩ := take_write_run h
      have hMid : mid.tree.Anchored path directory :=
        hTree ▸ (hSteps.1.writeIfChanged_fills hWrite).anchored hAnchored
      by_cases hHere : failure ∈ (report.add artifact outcome).failures
      · rcases outcome with fault | changed
        · obtain rfl : failure = (artifact, fault) := by
            simpa [add_failures, hNew] using hHere
          rw [Bool.eq_false_iff]
          intro hFile
          obtain ⟨place, content, hPlace, hNode⟩ := Files.FileTree.hasFile_eq_true_iff.mp hFile
          have hLast : last.tree.Anchored path directory :=
            (take_fills hOutputs h).anchored hAnchored
          obtain ⟨changed, hOk⟩ := hSteps.1.write_succeeds_of_writable text hAnchored
            (hSteps.1.writable_of_found hAnchored (take_grows h) hLast.proper hPlace hNode)
          rw [hWrite] at hOk
          cases hOk
        · rw [add_failures] at hHere
          exact absurd hHere hNew
      · exact ih hMid hSteps.2 hRest hHere

/-- After steps were taken, a file has its text just if there was no failure to write it, where files
with one place have one text. -/
theorem take_reads_iff (hAnchored : workspace.tree.Anchored path directory)
    (hSteps : ∀ write ∈ Step.writes steps, write.1.BelongsTo path stems)
    (hNodup : ((Step.writes steps).map (·.1)).Nodup)
    (hOne : ∀ first ∈ Step.writes steps, ∀ second ∈ Step.writes steps,
      first.1.place directory = second.1.place directory → first.2 = second.2)
    (hReport : report.failures = []) (h : take steps report workspace = (.ok result, last))
    {file : Artifact × String} (hFile : file ∈ Step.writes steps) :
    last.tree.read file.1.path = .ok file.2.toUTF8 ↔ result.Settles file.1 := by
  have hLast : last.tree.Anchored path directory :=
    (take_fills (fun write hWrite => (hSteps write hWrite).eq_ofModel) h).anchored hAnchored
  constructor
  · intro hRead failure hFailure hSame
    obtain ⟨place, hPlace, hNode⟩ := Files.FileTree.read_eq_ok_iff.mp hRead
    have hNone := take_failed hAnchored hSteps h hFailure (by simp [hReport])
    rw [hSame, Bool.eq_false_iff] at hNone
    exact hNone (Files.FileTree.hasFile_eq_true_iff.mpr ⟨place, _, hPlace, hNode⟩)
  · intro hSettles
    rcases take_settles h file hFile with ⟨fault, hFailure⟩ | ⟨place, content, hPlace, hNode⟩
    · exact absurd rfl (hSettles _ hFailure)
    rcases (take_file_iff h hNodup (by simp [Report.Settles, hReport]) place content).mp hNode with
      ⟨text, hText, rfl⟩ | ⟨hNone, -⟩
    · -- What was put at the place of the file last has the text of the file.
      obtain ⟨artifact, hWrite, hPlaces⟩ := hText.places
      have hSame : file.1.place directory = artifact.place directory :=
        ((hSteps file hFile).place_of_locate hLast hPlace).symm.trans
          ((hSteps _ hWrite).place_of_locate hLast hPlaces.2)
      rw [hOne file hFile _ hWrite hSame]
      exact Files.FileTree.read_eq_ok_iff.mpr ⟨place, hPlace, hNode⟩
    · exact absurd ⟨hSettles, hPlace⟩ (hNone file hFile)

end Job

end EntityGen
