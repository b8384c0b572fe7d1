import EntityGen.Proofs.Generation.FullRuns
import EntityGen.Proofs.Generation.Laying
import Mathlib.Data.String.Basic

/-! Files and directories that are in the way of a schema run. A directory at the place of a generated
file is a failure in the report, and all other files are written. A file at the place of a directory
of a model ends the run, whether it is asked for the model or not: what is stale has been removed
then, and no file is written. Links below the mappers directory and paths that do not fit are left
out here. -/

namespace EntityGen

open Files (FileTree IsSegment IsName Location Path)

theorem Text.insertSorted_pairwise (text : String) {texts : List String}
    (h : texts.Pairwise (· < ·)) : (insertSorted text texts).Pairwise (· < ·) := by
  induction texts with
  | nil => exact List.pairwise_singleton _ _
  | cons first rest ih =>
    obtain ⟨hFirst, hRest⟩ := List.pairwise_cons.mp h
    rw [insertSorted]
    split
    · rename_i hBefore
      refine List.pairwise_cons.mpr ⟨List.forall_mem_cons.mpr ⟨hBefore, ?_⟩, h⟩
      exact fun other hOther => lt_trans hBefore (hFirst other hOther)
    · rename_i hAfter
      split
      · exact h
      · rename_i hOther
        have hSame : text ≠ first := by simpa using hOther
        refine List.pairwise_cons.mpr ⟨fun other hMem => ?_, ih hRest⟩
        rcases mem_insertSorted.mp hMem with rfl | hOld
        · exact lt_of_le_of_ne (not_lt.mp hAfter) hSame.symm
        · exact hFirst other hOld

theorem Text.sorted_pairwise (texts : List String) : (sorted texts).Pairwise (· < ·) := by
  induction texts with
  | nil => exact List.Pairwise.nil
  | cons text rest ih => exact insertSorted_pairwise text ih

theorem Text.sorted_nodup (texts : List String) : (sorted texts).Nodup :=
  (sorted_pairwise texts).imp fun h => ne_of_lt h

namespace Files.FileTree

variable {tree : FileTree} {path : Path} {directory : Location} {name : String}

/-- There is a file at the place of a directory. -/
def IsBlocked (tree : FileTree) (directory : Location) (name : String) : Prop :=
  ∃ content, tree.node? (directory ++ [name]) = some (.file content)

theorem staleDirs_nodup (tree : FileTree) (directory : Location) (canonical : List String) :
    (tree.staleDirs directory canonical).Nodup :=
  (Text.sorted_nodup _).filter _

theorem anchored_cleared {canonical : List String} (hProper : tree.Proper)
    (hCleared : (tree.cleared directory canonical).Leads path directory)
    (hLinks : tree.NoLinkBelow directory) : (tree.cleared directory canonical).Anchored path directory :=
  ⟨hProper.without _, hCleared, fun below target hBelow hLink =>
    hLinks below target hBelow ((Loses.without tree _).links _ _ hLink)⟩

/-- What is in the way of a directory of a model is still there when what is stale was removed. -/
theorem isBlocked_cleared {canonical : List String} (hProper : tree.Proper)
    (hName : name ∈ canonical) :
    (tree.cleared directory canonical).IsBlocked directory name ↔ tree.IsBlocked directory name := by
  have hKept : DocumentKind.schema.loses directory (tree.staleDirs directory canonical)
      (directory ++ [name]) = false := by
    refine Bool.eq_false_iff.mpr fun hLost => ?_
    exact ((mem_stale hProper).mp (DocumentKind.loses_schema_below.mp hLost)).gone hName
  rw [IsBlocked, cleared, node?_without (DocumentKind.loses_root _), hKept]
  rfl

/-- A directory of a directory can be removed, if its path fits. -/
theorem removeDirAll_join_ok (hLeads : tree.Leads path directory) (hName : IsName name)
    (hFault : pathFault? (Path.join path name) = none)
    (hFound : tree.node? (directory ++ [name]) = some .directory) :
    tree.removeDirAll (Path.join path name) =
      .ok (tree.without (DocumentKind.schema.loses directory [name])) := by
  have hRemoved : ∃ after, tree.removeDirAll (Path.join path name) = .ok after := by
    rw [removeDirAll, hLeads.locateEntry_join hName hFault, hFound]
    simp only [Option.isSome_some, if_true, hFound]
    exact ⟨_, rfl⟩
  obtain ⟨after, hAfter⟩ := hRemoved
  rw [hAfter, removeDirAll_join hLeads (.refl tree) hName hFound hAfter]

/-- Where a path leads to a directory there is no file. -/
theorem not_isBlocked (hLeads : tree.Leads path directory) (hName : IsName name)
    (hFault : pathFault? (Path.join path name) = none)
    (hThere : tree.hasDirectory (Path.join path name) = true) : ¬ tree.IsBlocked directory name := by
  rintro ⟨content, hNode⟩
  obtain ⟨place, hPlace⟩ := hasDirectory_eq_true_iff.mp hThere
  have hWhere := hPlace.locate
  rw [hLeads.locate_join hName hFault (by simp [hNode]), hNode] at hWhere
  obtain rfl : directory ++ [name] = place := Place.taken.inj (Except.ok.inj hWhere)
  simp [hPlace.directory] at hNode

/-- A directory cannot be created where a file is. -/
theorem createDirAll_join_blocked (hLeads : tree.Leads path directory) (hName : IsName name)
    (hFault : pathFault? (Path.join path name) = none) (hBlocked : tree.IsBlocked directory name) :
    tree.createDirAll (Path.join path name) = (tree, some .alreadyThere) := by
  obtain ⟨content, hNode⟩ := hBlocked
  have hCreate : tree.createDir (Path.join path name) = .error .alreadyThere := by
    rw [createDir, hLeads.locateEntry_join hName hFault, hNode]
    rfl
  have hNone : tree.hasDirectory (Path.join path name) = false := by
    rw [hasDirectory, nodeAt?, hLeads.locate_join hName hFault (by simp [hNode]), hNode]
    simp [hNode, Node.isDirectory]
  obtain ⟨around, hAround⟩ := (Path.join path name).ancestors_eq_cons
  have hEmpty : Path.join path name ≠ "" := Path.join_ne_empty hName.notEmpty
  rw [createDirAll, hAround, createDirs, if_neg (by simpa using hEmpty), hCreate]
  simp [hNone]

end Files.FileTree

variable {path : Path} {directory : Location} {canonical names stems : List String}
  {workspace last : Workspace}

namespace Job

/-- Directories of models can be removed one after the other, if their paths fit and the path of the
mappers directory leads there without them. -/
theorem removeModelDirs_ok (hNodup : names.Nodup)
    (hFits : ∀ name ∈ names, FileTree.pathFault? (Path.join path name) = none)
    (hFound : ∀ name ∈ names, IsName name ∧
      workspace.tree.node? (directory ++ [name]) = some .directory)
    (hLeads : (workspace.tree.without (DocumentKind.schema.loses directory names)).Leads path
      directory) :
    ∃ after, removeModelDirs path names workspace = (.ok (), after) ∧
      after.tree = workspace.tree.without (DocumentKind.schema.loses directory names) := by
  induction names generalizing workspace with
  | nil => exact ⟨workspace, rfl, (FileTree.without_none _).symm⟩
  | cons name rest ih =>
    rw [List.nodup_cons] at hNodup
    rw [List.forall_mem_cons] at hFits hFound
    have hNow := hLeads.within (FileTree.Loses.without workspace.tree _).within
    have hSteps : (workspace.tree.without (DocumentKind.schema.loses directory [name])).without
        (DocumentKind.schema.loses directory rest) =
          workspace.tree.without (DocumentKind.schema.loses directory (name :: rest)) := by
      rw [FileTree.without_without]
      simp only [← DocumentKind.loses_cons]
    rw [removeModelDirs, bind_run_ok (tree_run workspace), FileTree.removeDirAll_join_ok hNow
      hFound.1.1 hFits.1 hFound.1.2, bind_run_ok (replaceTree_run_ok rfl _ _),
      bind_run_ok (tell_run _ _), ← hSteps]
    refine ih hNodup.2 hFits.2 (fun other hOther => ⟨(hFound.2 other hOther).1, ?_⟩) (hSteps ▸ hLeads)
    have hKept : DocumentKind.schema.loses directory [name] (directory ++ [other]) = false := by
      refine Bool.eq_false_iff.mpr fun hLost => hNodup.1 ?_
      rwa [← List.mem_singleton.mp (DocumentKind.loses_schema_below.mp hLost)]
    rw [FileTree.node?_without (DocumentKind.loses_root _), hKept]
    exact (hFound.2 other hOther).2

/-- Directories of models are all created, or one of them cannot be because a file is in the way. -/
theorem createModelDirs_cases (hAnchored : workspace.tree.Anchored path directory)
    (hFits : ∀ name ∈ names, IsName name ∧ FileTree.pathFault? (Path.join path name) = none) :
    (∀ name ∈ names, ¬ workspace.tree.IsBlocked directory name) ∧
        (∃ created, (createModelDirs path names workspace).1 = .ok created) ∨
      ∃ name ∈ names, workspace.tree.IsBlocked directory name ∧
        (createModelDirs path names workspace).1 =
          .error (.unwritten (Path.join path name) .alreadyThere) := by
  induction names generalizing workspace with
  | nil => exact .inl ⟨by simp, _, rfl⟩
  | cons name rest ih =>
    rw [List.forall_mem_cons] at hFits
    simp only [List.forall_mem_cons, List.exists_mem_cons_iff]
    rw [createModelDirs, bind_run_ok (tree_run workspace)]
    by_cases hThere : workspace.tree.hasDirectory (Path.join path name) = true
    · have hFree := FileTree.not_isBlocked hAnchored.leads hFits.1.1 hFits.1.2 hThere
      rw [if_pos hThere]
      exact (ih hAnchored hFits.2).imp (fun h => ⟨⟨hFree, h.1⟩, h.2⟩) .inr
    rw [if_neg hThere, bind_run, createDirAll_run]
    by_cases hBlocked : workspace.tree.IsBlocked directory name
    · have hCreate := FileTree.createDirAll_join_blocked hAnchored.leads hFits.1.1 hFits.1.2 hBlocked
      exact .inr (.inl ⟨hBlocked, by simp only [hCreate]⟩)
    have hMade := hAnchored.createDirAll_join_ok hFits.1.1 hFits.1.2
      fun content hNode => hBlocked ⟨content, hNode⟩
    have hGains := workspace.tree.createDirAll_gains (Path.join path name)
    have hAfter := hAnchored.grows hGains.grows
      (FileTree.createDirAll_proper hAnchored.proper (Path.join path name))
    simp only [hMade, bind_run, tell_run]
    generalize hStart : ({ workspace with
      tree := (workspace.tree.createDirAll (Path.join path name)).1
      notices := workspace.notices ++ [.directoryCreated name] } : Workspace) = start
    have hTree : start.tree = (workspace.tree.createDirAll (Path.join path name)).1 := by
      rw [← hStart]
    have hSame (other : String) : start.tree.IsBlocked directory other ↔
        workspace.tree.IsBlocked directory other := by
      simp only [FileTree.IsBlocked, hTree, hGains.file_iff]
    rw [← hTree] at hAfter
    have ih := ih hAfter hFits.2
    simp only [hSame] at ih
    rcases ih with ⟨hNone, created, hOk⟩ | ⟨other, hOther, hNode, hFault⟩
    · refine .inl ⟨⟨hBlocked, hNone⟩, name :: created, ?_⟩
      rcases hRest : createModelDirs path rest start with ⟨result, after⟩
      rw [hRest] at hOk
      obtain rfl : result = .ok created := hOk
      rfl
    · refine .inr (.inr ⟨other, hOther, hNode, ?_⟩)
      rcases hRest : createModelDirs path rest start with ⟨result, after⟩
      rw [hRest] at hFault
      obtain rfl : result = _ := hFault
      rfl

/-- Where paths fit, the mappers directory is cleared, and then the directories of models are
created. -/
theorem align_eq_create (hProper : workspace.tree.Proper)
    (hLeads : workspace.tree.Leads path directory)
    (hCleared : (workspace.tree.cleared directory canonical).Leads path directory)
    (hStale : ∀ name ∈ workspace.tree.staleDirs directory canonical,
      FileTree.pathFault? (Path.join path name) = none) :
    ∃ start : Workspace, start.tree = workspace.tree.cleared directory canonical ∧
      align path canonical workspace = (do
        let created ← createModelDirs path canonical
        return ⟨workspace.tree.staleDirs directory canonical, created⟩ : Job Reconciliation)
          start := by
  have hCreate : createDirAll (.unwritten path) path workspace = (.ok (), workspace) := by
    rw [createDirAll_run, hLeads.createDirAll_eq_self]
  have hList : existingModelDirs path workspace =
      (.ok (modelDirs (workspace.tree.children directory)), workspace) := by
    have hNodes : workspace.tree.list path = .ok (workspace.tree.children directory) :=
      FileTree.list_ok_iff.mpr ⟨directory, hLeads, rfl⟩
    simp only [existingModelDirs, bind_run, tree_run, hNodes, pure_run]
  have hFound : ∀ name ∈ workspace.tree.staleDirs directory canonical, IsName name ∧
      workspace.tree.node? (directory ++ [name]) = some .directory := fun name hName =>
    IsStale_isName hProper ((FileTree.mem_stale hProper).mp hName)
  obtain ⟨start, hRemove, hStart⟩ := removeModelDirs_ok
    (workspace.tree.staleDirs_nodup directory canonical) hStale hFound hCleared
  refine ⟨start, hStart, ?_⟩
  rw [align, bind_run_ok hCreate, reconcile, bind_run_ok hList]
  exact bind_run_ok hRemove _

/-- How the mappers directory is brought into line where paths fit: all directories of models are
created after what is stale was removed, or one of them cannot be because a file is in the way. -/
theorem align_cases (hProper : workspace.tree.Proper)
    (hLeads : workspace.tree.Leads path directory) (hLinks : workspace.tree.NoLinkBelow directory)
    (hCleared : (workspace.tree.cleared directory canonical).Leads path directory)
    (hStale : ∀ name ∈ workspace.tree.staleDirs directory canonical,
      FileTree.pathFault? (Path.join path name) = none)
    (hFits : ∀ name ∈ canonical, IsName name ∧ FileTree.pathFault? (Path.join path name) = none) :
    (workspace.tree.cleared directory canonical).Gains (align path canonical workspace).2.tree ∧
      (∀ name ∈ workspace.tree.staleDirs directory canonical, ∀ below,
        (align path canonical workspace).2.tree.node? (directory ++ name :: below) = none) ∧
      ((∀ name ∈ canonical, ¬ workspace.tree.IsBlocked directory name) ∧
          (∃ changed, (align path canonical workspace).1 = .ok changed) ∨
        ∃ name ∈ canonical, workspace.tree.IsBlocked directory name ∧
          (align path canonical workspace).1 =
            .error (.unwritten (Path.join path name) .alreadyThere)) := by
  obtain ⟨start, hStart, hRun⟩ := align_eq_create hProper hLeads hCleared hStale
  have hAnchored : start.tree.Anchored path directory :=
    hStart ▸ FileTree.anchored_cleared hProper hCleared hLinks
  have hGains : start.tree.Gains (createModelDirs path canonical start).2.tree :=
    createModelDirs_gains rfl
  have hFills : FileTree.Fills path directory canonical start.tree
      (createModelDirs path canonical start).2.tree :=
    createModelDirs_fills (fun _ => id) (fun name hName => (hFits name hName).1.isSegment) start
  have hGone : ∀ name ∈ workspace.tree.staleDirs directory canonical, ∀ below,
      (createModelDirs path canonical start).2.tree.node? (directory ++ name :: below) = none := by
    intro name hName below
    have hStale := (FileTree.mem_stale hProper).mp hName
    rw [(hFills hAnchored).2.outside hStale.gone, hStart]
    exact workspace.tree.node?_without_dirs hName below
  have hBlocked : ∀ name ∈ canonical, (start.tree.IsBlocked directory name ↔
      workspace.tree.IsBlocked directory name) := by
    rw [hStart]
    exact fun name hName => FileTree.isBlocked_cleared hProper hName
  have hCases := createModelDirs_cases hAnchored hFits
  rw [hRun, bind_run, ← hStart]
  rcases hDirs : createModelDirs path canonical start with ⟨result, made⟩
  rw [hDirs] at hCases hGains hGone
  rcases hCases with ⟨hFree, created, hOk⟩ | ⟨name, hName, hNode, hFault⟩
  · obtain rfl : result = .ok created := hOk
    exact ⟨hGains, hGone, .inl ⟨fun name hName hNode =>
      hFree name hName ((hBlocked name hName).mpr hNode), _, rfl⟩⟩
  · obtain rfl : result = _ := hFault
    exact ⟨hGains, hGone, .inr ⟨name, hName, (hBlocked name hName).mp hNode, rfl⟩⟩

variable {steps : List Step} {report result : Report}

/-- Where a file could not be written, there is a directory in its place. -/
theorem take_obstructed (hLaid : workspace.tree.LaidOut path directory stems)
    (hSteps : ∀ write ∈ Step.writes steps, write.1.BelongsTo path stems)
    (hFits : ∀ write ∈ Step.writes steps, FileTree.pathFault? write.1.path = none ∧
      IsName (write.1.kind.fileName (Naming.stem write.1.model)))
    (h : take steps report workspace = (.ok result, last)) {failure : Artifact × Fault}
    (hFailure : failure ∈ result.failures) (hNew : failure ∉ report.failures) :
    last.tree.node? (failure.1.place directory) = some .directory := by
  induction steps generalizing report workspace with
  | nil =>
    obtain ⟨rfl, -⟩ := take_nil h
    exact absurd hFailure hNew
  | cons step rest ih =>
    cases step with
    | tell notice =>
      obtain ⟨mid, hTree, hRest⟩ := take_tell h
      exact ih (hTree ▸ hLaid) hSteps hFits hRest hNew
    | write artifact text =>
      simp only [Step.writes, List.forall_mem_cons] at hSteps hFits
      obtain ⟨outcome, written, mid, hWrite, hTree, hRest⟩ := take_write_run h
      have hFills : Keeps (FileTree.Fills path directory stems)
          (writeIfChanged artifact.path text) := by
        rw [hSteps.1.2.2]
        exact writeIfChanged_fills hSteps.1.1 hSteps.1.2.1 text
      have hMid : mid.tree.LaidOut path directory stems := by
        have hGrows := (writeIfChanged_run hWrite).grows
        have hAnchored := (hFills.run hWrite).anchored hLaid.anchored
        rw [hTree]
        exact hLaid.grows hGrows hAnchored.proper
      by_cases hHere : failure ∈ (report.add artifact outcome).failures
      · by_contra hNode
        have hNow : workspace.tree.node? (artifact.place directory) ≠ some .directory := by
          intro hBefore
          rcases outcome with fault | changed
          · obtain rfl : failure = (artifact, fault) := by simpa [add_failures, hNew] using hHere
            exact hNode ((take_grows h).within.directory hBefore)
          · exact hNew (by simpa [add_failures] using hHere)
        obtain ⟨changed, hOk⟩ := hSteps.1.write_succeeds hLaid text hFits.1.1 hFits.1.2 hNow
        rw [hWrite] at hOk
        obtain rfl : outcome = .ok changed := hOk
        exact hNew (by simpa [add_failures] using hHere)
      · exact ih hMid hSteps.2 hFits.2 hRest hHere

/-- The files that cannot be written are those in whose places there are directories. -/
theorem take_fails_iff (hLaid : workspace.tree.LaidOut path directory stems)
    (hSteps : ∀ write ∈ Step.writes steps, write.1.BelongsTo path stems)
    (hFits : ∀ write ∈ Step.writes steps, FileTree.pathFault? write.1.path = none ∧
      IsName (write.1.kind.fileName (Naming.stem write.1.model)))
    (hReport : report.failures = []) (h : take steps report workspace = (.ok result, last))
    {file : Artifact × String} (hFile : file ∈ Step.writes steps) :
    (∃ fault, (file.1, fault) ∈ result.failures) ↔
      workspace.tree.node? (file.1.place directory) = some .directory := by
  constructor
  · rintro ⟨fault, hFailure⟩
    have hDirectory := take_obstructed hLaid hSteps hFits h hFailure (by simp [hReport])
    exact (take_directories (fun stem hStem => ⟨_, hLaid.dirs stem hStem⟩) hSteps h _).mp hDirectory
  · intro hNode
    refine (take_settles h file hFile).resolve_right ?_
    rintro ⟨place, content, hPlace, hHolds⟩
    have hLast := (take_fills (fun write hWrite => (hSteps write hWrite).eq_ofModel) h).anchored
      hLaid.anchored
    obtain rfl := (hSteps file hFile).place_of_locate hLast hPlace
    rw [(take_grows h).within.directory hNode] at hHolds
    cases hHolds

/-- A file that has no directory at its place is there after steps were taken, and with its text
where files with one place have one text. -/
theorem take_unobstructed (hLaid : workspace.tree.LaidOut path directory stems)
    (hSteps : ∀ write ∈ Step.writes steps, write.1.BelongsTo path stems)
    (hFits : ∀ write ∈ Step.writes steps, FileTree.pathFault? write.1.path = none ∧
      IsName (write.1.kind.fileName (Naming.stem write.1.model)))
    (hNodup : ((Step.writes steps).map (·.1)).Nodup)
    (hReport : report.failures = []) (h : take steps report workspace = (.ok result, last))
    {file : Artifact × String} (hFile : file ∈ Step.writes steps)
    (hNode : workspace.tree.node? (file.1.place directory) ≠ some .directory) :
    last.tree.hasFile file.1.path = true ∧
      ((∀ first ∈ Step.writes steps, ∀ second ∈ Step.writes steps,
          first.1.place directory = second.1.place directory → first.2 = second.2) →
        last.tree.read file.1.path = .ok file.2.toUTF8) := by
  have hFails := take_fails_iff hLaid hSteps hFits hReport h hFile
  have hSettles : result.Settles file.1 := fun failure hFailure hSame =>
    hNode (hFails.mp ⟨failure.2, hSame ▸ hFailure⟩)
  have hThere := (take_settles h file hFile).resolve_left fun hFailure => hNode (hFails.mp hFailure)
  exact ⟨Files.FileTree.hasFile_eq_true_iff.mpr hThere, fun hOne =>
    (take_reads_iff hLaid.anchored hSteps hNodup hOne hReport h hFile).mpr hSettles⟩

end Job

/-! ### Runs -/

variable {schema : Schema}

/-- Paths of files that fit are those of directories that fit. -/
theorem Schema.dirs_fit (hNames : ∀ model ∈ schema.models, isModelName model.1 = true)
    (hFits : ∀ file ∈ modelFiles path schema.models, FileTree.pathFault? file.1.path = none ∧
      IsName (file.1.kind.fileName (Naming.stem file.1.model))) :
    ∀ name ∈ schema.dirs, IsName name ∧ FileTree.pathFault? (Path.join path name) = none := by
  intro name hName
  obtain ⟨_, hMember, rfl⟩ := mem_canonicalDirs.mp hName
  obtain ⟨model, hModel, rfl⟩ := List.mem_map.mp hMember
  have hFile : _ ∈ modelFiles path schema.models :=
    mem_modelFiles_iff.mpr ⟨model, hModel, .inl rfl⟩
  have hBelongs := Schema.belongsTo hNames _ hFile
  obtain ⟨hFault, hName⟩ := hFits _ hFile
  exact ⟨hBelongs.isName_stem hName, hBelongs.pathFault?_dir hFault⟩

section

variable {generator : Generator} {documentPath : Path} {options : Options} {report : Report}
  (hProper : workspace.tree.Proper) (hLoad : (loadSchema documentPath workspace).1 = .ok schema)
  (hResolved : schema.dangling? = none) (hSelected : options.selectModels schema ≠ [])
  (hLeads : workspace.tree.Leads path directory) (hLinks : workspace.tree.NoLinkBelow directory)
  (hFits : ∀ file ∈ modelFiles path schema.models, FileTree.pathFault? file.1.path = none ∧
    IsName (file.1.kind.fileName (Naming.stem file.1.model)))
include hProper hLoad hResolved hSelected hLeads hLinks hFits

/-- A run succeeds where no file is in the way of a directory of a model, or it ends with the fault
of such a directory when what is stale has been removed. -/
theorem Generator.generateSchema_cases
    (hCleared : (workspace.tree.cleared directory schema.dirs).Leads path directory)
    (hStale : ∀ name ∈ workspace.tree.staleDirs directory schema.dirs,
      FileTree.pathFault? (Path.join path name) = none) :
    (∀ name ∈ schema.dirs, ¬ workspace.tree.IsBlocked directory name) ∧
        (∃ report, (generator.generateSchema path documentPath options workspace).1 = .ok report) ∨
      (∃ name ∈ schema.dirs, workspace.tree.IsBlocked directory name ∧
          (generator.generateSchema path documentPath options workspace).1 =
            .error (.unwritten (Path.join path name) .alreadyThere)) ∧
        (workspace.tree.cleared directory schema.dirs).Gains
          (generator.generateSchema path documentPath options workspace).2.tree ∧
        ∀ name ∈ workspace.tree.staleDirs directory schema.dirs,
          (generator.generateSchema path documentPath options workspace).2.tree.node?
            (directory ++ [name]) = none := by
  have hNames := (@Options.selectModels_names {} documentPath workspace schema hLoad).2
  obtain ⟨passed, hTree, hEmit⟩ := generator.generateSchema_emits path hLoad hResolved hSelected
  rw [emitModels_eq] at hEmit
  rw [← hTree] at hProper hLeads hLinks hCleared hStale ⊢
  have hAlign := Job.align_cases hProper hLeads hLinks hCleared hStale
    (Schema.dirs_fit hNames hFits)
  rcases hMade : Job.align path schema.dirs passed with ⟨result, made⟩
  rw [hMade] at hAlign
  obtain ⟨hGains, hGone, ⟨hFree, changed, hChanged⟩ | ⟨name, hName, hNode, hFault⟩⟩ := hAlign
  · obtain rfl : result = .ok changed := hChanged
    rw [Job.bind_run_ok hMade] at hEmit
    obtain ⟨report, -, -, hOk, -⟩ := finish_run hEmit.symm
    exact .inl ⟨hFree, report, hOk⟩
  · obtain rfl : result = _ := hFault
    rw [Job.bind_run_error hMade] at hEmit
    rw [hEmit]
    exact .inr ⟨⟨name, hName, hNode, rfl⟩, hGains, fun stale hStale => hGone stale hStale []⟩

/-- After a run that succeeds, the failures in its report are of files asked for, and they are those
that have a directory at their place; the others are there, with their texts if stems are
different. -/
theorem Generator.generateSchema_failures
    (h : generator.generateSchema path documentPath options workspace = (.ok report, last)) :
    report.models = (options.selectModels schema).map (·.1) ∧
      (∀ failure ∈ report.failures, ∃ file ∈ modelFiles path (options.selectModels schema),
        file.1 = failure.1) ∧
      ∃ emitted, last.tree = generator.formatted path options emitted ∧
        ∀ file ∈ modelFiles path (options.selectModels schema),
          ((∃ fault, (file.1, fault) ∈ report.failures) ↔
            workspace.tree.node? (file.1.place directory) = some .directory) ∧
          (workspace.tree.node? (file.1.place directory) ≠ some .directory →
            emitted.hasFile file.1.path = true ∧
            ((schema.models.map fun model => Naming.stem model.1).Nodup →
              emitted.read file.1.path = .ok file.2.toUTF8)) := by
  have hNames := (@Options.selectModels_names {} documentPath workspace schema hLoad).2
  have hSegments := Schema.isSegment_dirs hNames
  have hSame := hLeads.createDirAll_eq_self
  obtain ⟨_, changed, made, emitted, location, -, -, hAligned, -, hLaid, hTake, hLast⟩ :=
    generateSchema_aligned hProper hLoad hResolved
      (fun other hOther => by
        rw [hSame] at hOther
        exact hLeads.unique hOther ▸ hLinks)
      hSelected h
  rw [hSame] at hAligned
  obtain rfl := hAligned.leads.unique hLeads
  have hBelongs := options.steps_belong path hNames
  have hFitting := fun write hWrite => hFits write (options.steps_subset path schema write hWrite)
  rw [← options.writes_steps]
  refine ⟨(Job.take_kept hTake).1, fun failure hFailure =>
    ((Job.take_failures hTake).2 failure hFailure).resolve_left (by simp), emitted.tree, hLast, ?_⟩
  intro file hFile
  have hPlace : made.tree.node? (file.1.place location) =
      workspace.tree.node? (file.1.place location) :=
    hAligned.node_eq hLinks hSegments (hAligned.keeps_dir (hBelongs file hFile).2.1) fun name _ =>
      (file.1.stem_ne_place name).symm
  rw [← hPlace]
  refine ⟨Job.take_fails_iff hLaid hBelongs hFitting rfl hTake hFile, fun hNode => ?_⟩
  refine (Job.take_unobstructed hLaid hBelongs hFitting (options.steps_nodup path hLoad) rfl hTake
    hFile hNode).imp_right fun hReads hStems => hReads ?_
  exact fun first hFirst second hSecond hPlaces => congrArg Prod.snd
    (options.steps_place path location hStems first hFirst second hSecond hPlaces)

end

/-- A schema that passes the gate is generated into a mappers directory without links below it, where
all paths fit and that of the mappers directory does not lead through what is stale. The run succeeds
just if there is no file at the place of a directory of a model, asked for or not. If there is one,
the run ends with the fault of such a directory, and no file was written after what is stale was
removed. When it succeeds, the failures in its report are of files asked for, and they are those that
have a directory at their place; the others are there, with their texts if stems are different. -/
theorem Generator.generateSchema_obstructed_iff (generator : Generator) (path documentPath : Path)
    (options : Options) (workspace : Workspace) (value : Yaml.Value) (schema : Schema)
    (location : Location) (hProper : workspace.tree.Proper)
    (hSchema : SchemaAt workspace.tree documentPath value schema) (hResolved : schema.Resolves value)
    (hAsked : ∃ name ∈ schema.models.map (·.1), options.includes name = true)
    (hLeads : workspace.tree.Leads path location) (hLinks : workspace.tree.NoLinkBelow location)
    (hCleared : (workspace.tree.cleared location schema.dirs).Leads path location)
    (hStale : ∀ name ∈ workspace.tree.staleDirs location schema.dirs,
      FileTree.pathFault? (Path.join path name) = none)
    (hFits : ∀ file ∈ modelFiles path schema.models, FileTree.pathFault? file.1.path = none ∧
      IsName (file.1.kind.fileName (Naming.stem file.1.model))) :
    let run := generator.generateSchema path documentPath options workspace
    ((∃ report, run.1 = .ok report) ↔
      ∀ name ∈ schema.dirs, ¬ workspace.tree.IsBlocked location name) ∧
    ((∃ name ∈ schema.dirs, workspace.tree.IsBlocked location name) →
      (∃ name ∈ schema.dirs, workspace.tree.IsBlocked location name ∧
        run.1 = .error (.unwritten (Path.join path name) .alreadyThere)) ∧
      (workspace.tree.cleared location schema.dirs).Gains run.2.tree ∧
      ∀ name ∈ workspace.tree.staleDirs location schema.dirs,
        run.2.tree.node? (location ++ [name]) = none) ∧
    ∀ report, run.1 = .ok report → report.models = (options.selectModels schema).map (·.1) ∧
      (∀ failure ∈ report.failures, ∃ file ∈ modelFiles path (options.selectModels schema),
        file.1 = failure.1) ∧
      ∃ emitted, run.2.tree = generator.formatted path options emitted ∧
        ∀ file ∈ modelFiles path (options.selectModels schema),
          ((∃ fault, (file.1, fault) ∈ report.failures) ↔
            workspace.tree.node? (file.1.place location) = some .directory) ∧
          (workspace.tree.node? (file.1.place location) ≠ some .directory →
            emitted.hasFile file.1.path = true ∧
            ((schema.models.map fun model => Naming.stem model.1).Nodup →
              emitted.read file.1.path = .ok file.2.toUTF8)) := by
  intro run
  have hLoad := loadSchema_ok_iff.mpr ⟨value, hSchema⟩
  have hGate := (Schema.dangling?_eq_none_iff hSchema.2).mpr hResolved
  have hSelected := Options.selectModels_ne_nil hAsked
  have hReported := fun report hOk => generateSchema_failures hProper hLoad hGate hSelected hLeads
    hLinks hFits (Prod.ext (hOk : run.1 = .ok report) rfl)
  rcases generateSchema_cases hProper hLoad hGate hSelected hLeads hLinks hFits hCleared hStale with
    ⟨hFree, hOk⟩ | ⟨⟨name, hName, hNode, hFault⟩, hLeft⟩
  · exact ⟨iff_of_true hOk hFree, fun ⟨name, hName, hNode⟩ => absurd hNode (hFree name hName),
      hReported⟩
  · have hNever : ¬ ∃ report, run.1 = .ok report := by
      rintro ⟨report, hOk⟩
      cases hFault.symm.trans hOk
    exact ⟨iff_of_false hNever fun hFree => hFree name hName hNode,
      fun _ => ⟨⟨name, hName, hNode, hFault⟩, hLeft⟩, hReported⟩

/-- A schema of two models, and a file where the directory of the first one belongs. -/
def blocked : Workspace where
  tree :=
    { entries := [(["schema.tw"], .file (String.toUTF8 "A:\n  type: model\nB:\n  type: model\n")),
        (["m"], .directory), (["m", "a"], .file ByteArray.empty), (["m", "old"], .directory)] }

/-- A run that is asked for the second model only ends with the fault of the first one's directory,
and the directory of a model that is gone has been removed. -/
theorem first_model_blocks : ∃ value schema, blocked.tree.Proper ∧
    SchemaAt blocked.tree "schema.tw" value schema ∧ schema.Resolves value ∧
    blocked.tree.Leads "m" ["m"] ∧
    (plainGenerator.generateSchema "m" "schema.tw" { names := some ["B"] } blocked).1 =
      .error (.unwritten "m/a" .alreadyThere) ∧
    (plainGenerator.generateSchema "m" "schema.tw" { names := some ["B"] } blocked).2.tree.node?
      ["m", "old"] = none := by
  have hEvaluated : ((loadSchema "schema.tw" blocked).1.toOption.any fun schema =>
      schema.dangling?.isNone && schema.models.map (·.1) == ["A", "B"] &&
      (modelFiles "m" schema.models).all fun file =>
        (FileTree.pathFault? file.1.path).isNone &&
          decide (IsName (file.1.kind.fileName (Naming.stem file.1.model)))) = true := by
    decide +kernel
  rcases hLoad : (loadSchema "schema.tw" blocked).1 with fault | schema
  · simp [hLoad, Except.toOption] at hEvaluated
  simp only [hLoad, Except.toOption, Option.any_some, Bool.and_eq_true, Option.isNone_iff_eq_none,
    beq_iff_eq, List.all_eq_true, decide_eq_true_eq] at hEvaluated
  obtain ⟨⟨hResolved, hModels⟩, hFits⟩ := hEvaluated
  obtain ⟨value, hSchema⟩ := loadSchema_ok_iff.mp hLoad
  have hDirs : schema.dirs = ["a", "b"] := by
    rw [Schema.dirs, hModels]
    rfl
  have hStale : blocked.tree.staleDirs ["m"] ["a", "b"] = ["old"] := by decide +kernel
  have hProper : blocked.tree.Proper := by decide +kernel
  have hPlain : ∀ entry ∈ blocked.tree.entries, ∀ target, entry.2 ≠ .link target := by
    simp [blocked]
  have hLeads : blocked.tree.Leads "m" ["m"] := ⟨by rfl, by rfl⟩
  have hCleared : (blocked.tree.cleared ["m"] schema.dirs).Leads "m" ["m"] := by
    rw [hDirs]
    exact ⟨by decide +kernel, by rfl⟩
  have hGate := (Schema.dangling?_eq_none_iff hSchema.2).mp hResolved
  have hBlocked : blocked.tree.IsBlocked ["m"] "a" := ⟨ByteArray.empty, by rfl⟩
  obtain ⟨-, hFails, -⟩ := Generator.generateSchema_obstructed_iff plainGenerator "m" "schema.tw"
    { names := some ["B"] } blocked value schema ["m"] hProper hSchema hGate
    ⟨"B", by simp [hModels], by decide⟩ hLeads (hProper.noLinkBelow hPlain ["m"]) hCleared
    (by rw [hDirs, hStale]; decide +kernel) hFits
  obtain ⟨⟨name, hName, ⟨content, hNode⟩, hFault⟩, -, hGone⟩ :=
    hFails ⟨"a", by simp [hDirs], hBlocked⟩
  refine ⟨value, schema, hProper, hSchema, hGate, hLeads, ?_,
    hGone "old" (by rw [hDirs, hStale]; exact List.mem_cons_self)⟩
  rw [hDirs] at hName
  obtain rfl | rfl : name = "a" ∨ name = "b" := by simpa using hName
  · exact hFault
  · cases hNode

end EntityGen
