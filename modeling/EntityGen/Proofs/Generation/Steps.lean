import EntityGen.Generation.Run
import EntityGen.Proofs.Files.Operation
import EntityGen.Proofs.Job

/-! The steps of a generation. Taking steps never fails: what becomes of a file goes into the report,
and the file tree is changed by the writes alone, in order. At the end each file has the text that
was last written to where it is. -/

namespace EntityGen

open Files (FileTree Location Path)

namespace Job

/-! ### Writing one file -/

/-- How the writing of a file can go: it fails, and then no more than directories were created, or
the path leads to the text afterwards, and no other file is different. -/
inductive Writing (path : Path) (content : ByteArray) (before : FileTree) :
    Except Fault Bool → FileTree → Prop
  | failed {fault : Fault} {after : FileTree} (gains : before.Gains after) :
      Writing path content before (.error fault) after
  | settled {written : Bool} {after : FileTree} {location : Location} (grows : before.Grows after)
      (leads : after.locate path = .ok (.taken location))
      (holds : after.node? location = some (.file content))
      (others : ∀ other, other ≠ location → ∀ text,
        after.node? other = some (.file text) ↔ before.node? other = some (.file text)) :
      Writing path content before (.ok written) after

theorem Writing.grows {path : Path} {content : ByteArray} {before after : FileTree}
    {result : Except Fault Bool} (h : Writing path content before result after) :
    before.Grows after := by
  cases h with
  | failed gains => exact gains.grows
  | settled grows => exact grows

theorem writeFile_run {path : Path} {text : String} {workspace after : Workspace}
    {result : Except Fault Unit} (h : writeFile path text workspace = (result, after)) :
    Writing path text.toUTF8 workspace.tree (result.map fun _ => true) after.tree := by
  -- The directories around the file come first; `mid` is the tree that the write finds.
  have hWrite (mid : Workspace) (hGains : workspace.tree.Gains mid.tree)
      (h : replaceTree (.unwritten path) (mid.tree.write path text.toUTF8) mid = (result, after)) :
      Writing path text.toUTF8 workspace.tree (result.map fun _ => true) after.tree := by
    rcases hWritten : mid.tree.write path text.toUTF8 with cause | tree
    · rw [replaceTree_run_error hWritten, Prod.mk.injEq] at h
      obtain ⟨rfl, rfl⟩ := h
      exact .failed hGains
    · rw [replaceTree_run_ok hWritten, Prod.mk.injEq] at h
      obtain ⟨rfl, rfl⟩ := h
      obtain ⟨location, hRoot, rfl, hGrows, hLeads⟩ := FileTree.write_ok hWritten
      refine .settled (hGains.grows.trans hGrows) hLeads (FileTree.node?_put_self hRoot) ?_
      intro other hOther content
      rw [FileTree.node?_put_ne hOther, hGains.file_iff]
  rw [writeFile] at h
  rcases hParent : path.parent? with _ | directory
  · simp only [hParent, bind_run, tree_run] at h
    exact hWrite workspace (.refl _) h
  · have hGains := FileTree.createDirAll_gains workspace.tree directory
    simp only [hParent, bind_run, createDirAll_run] at h
    rcases hFault : (workspace.tree.createDirAll directory).2 with _ | cause
    · simp only [hFault, tree_run] at h
      exact hWrite { workspace with tree := (workspace.tree.createDirAll directory).1 } hGains h
    · simp only [hFault] at h
      obtain ⟨rfl, rfl⟩ := Prod.mk.inj h
      exact .failed hGains

theorem writeIfChanged_run {path : Path} {text : String} {workspace after : Workspace}
    {result : Except Fault Bool} (h : writeIfChanged path text workspace = (result, after)) :
    Writing path text.toUTF8 workspace.tree result after.tree := by
  simp only [writeIfChanged, bind_run, tree_run] at h
  by_cases hHolds : workspace.tree.holds path text.toUTF8
  · rw [if_pos hHolds, pure_run, Prod.mk.injEq] at h
    obtain ⟨rfl, rfl⟩ := h
    obtain ⟨location, hLeads, hNode⟩ :=
      FileTree.read_eq_ok_iff.mp (FileTree.holds_eq_true_iff.mp hHolds)
    exact .settled (.refl _) hLeads hNode fun _ _ _ => .rfl
  · rw [if_neg hHolds, bind_run] at h
    rcases hFile : writeFile path text workspace with ⟨fault | _, last⟩
    all_goals
      simp only [hFile, pure_run] at h
      obtain ⟨rfl, rfl⟩ := Prod.mk.inj h
      exact writeFile_run hFile

theorem writeArtifact_result (artifact : Artifact) (text : String) (report : Report)
    (workspace : Workspace) :
    (writeArtifact artifact text report workspace).1 =
      .ok (report.add artifact (writeIfChanged artifact.path text workspace).1) := by
  simp only [writeArtifact, bind_run, outcome_run]
  rcases (writeIfChanged artifact.path text workspace).1 with cause | written <;>
    simp [bind_run]

theorem writeArtifact_tree (artifact : Artifact) (text : String) (report : Report)
    (workspace : Workspace) :
    (writeArtifact artifact text report workspace).2.tree =
      (writeIfChanged artifact.path text workspace).2.tree := by
  simp only [writeArtifact, bind_run, outcome_run]
  rcases (writeIfChanged artifact.path text workspace).1 with cause | written <;>
    simp [bind_run]

/-! ### Taking steps -/

/-- Whatever a step runs into is put into the report. -/
theorem take_ok (steps : List Step) (report : Report) (workspace : Workspace) :
    ∃ result, (take steps report workspace).1 = .ok result := by
  induction steps generalizing report workspace with
  | nil => exact ⟨report, rfl⟩
  | cons step rest ih =>
    cases step with
    | write artifact text =>
      rw [take, bind_run]
      have h := writeArtifact_result artifact text report workspace
      rcases hRun : writeArtifact artifact text report workspace with ⟨result, after⟩
      obtain rfl : result = _ := by simpa [hRun] using h
      exact ih _ after
    | tell notice =>
      rw [take, bind_run]
      exact ih report _

variable {steps : List Step} {report result : Report} {workspace after : Workspace}

/-- The outcome of a write goes into the report, and the file tree is as the write left it. -/
theorem take_write_run {artifact : Artifact} {text : String}
    (h : take (.write artifact text :: steps) report workspace = (.ok result, after)) :
    ∃ outcome written mid, writeIfChanged artifact.path text workspace = (outcome, written) ∧
      mid.tree = written.tree ∧
      take steps (report.add artifact outcome) mid = (.ok result, after) := by
  have hResult := writeArtifact_result artifact text report workspace
  have hTree := writeArtifact_tree artifact text report workspace
  rw [take, bind_run] at h
  rcases hRun : writeArtifact artifact text report workspace with ⟨added, mid⟩
  rcases hFile : writeIfChanged artifact.path text workspace with ⟨outcome, written⟩
  rw [hRun, hFile] at hResult hTree
  obtain rfl : added = .ok (report.add artifact outcome) := hResult
  rw [hRun] at h
  exact ⟨outcome, written, mid, rfl, hTree, h⟩

theorem take_write {artifact : Artifact} {text : String}
    (h : take (.write artifact text :: steps) report workspace = (.ok result, after)) :
    ∃ outcome mid, Writing artifact.path text.toUTF8 workspace.tree outcome mid.tree ∧
      take steps (report.add artifact outcome) mid = (.ok result, after) := by
  obtain ⟨outcome, written, mid, hFile, hTree, hRest⟩ := take_write_run h
  exact ⟨outcome, mid, hTree ▸ writeIfChanged_run hFile, hRest⟩

theorem take_tell {notice : Notice}
    (h : take (.tell notice :: steps) report workspace = (.ok result, after)) :
    ∃ mid : Workspace, mid.tree = workspace.tree ∧ take steps report mid = (.ok result, after) := by
  rw [take, bind_run, tell_run] at h
  exact ⟨{ workspace with notices := workspace.notices ++ [notice] }, rfl, h⟩

theorem take_nil (h : take [] report workspace = (.ok result, after)) :
    result = report ∧ after = workspace := by
  obtain ⟨hReport, rfl⟩ := Prod.mk.inj h
  exact ⟨(Except.ok.inj hReport).symm, rfl⟩

theorem take_grows (h : take steps report workspace = (.ok result, after)) :
    workspace.tree.Grows after.tree := by
  induction steps generalizing report workspace with
  | nil =>
    obtain ⟨-, rfl⟩ := take_nil h
    exact .refl _
  | cons step rest ih =>
    cases step with
    | write artifact text =>
      obtain ⟨outcome, mid, hWriting, hRest⟩ := take_write h
      exact hWriting.grows.trans (ih hRest)
    | tell notice =>
      obtain ⟨mid, hTree, hRest⟩ := take_tell h
      exact hTree ▸ ih hRest

end Job

/-- The files among steps, with their texts. -/
def Step.writes : List Step → List (Artifact × String)
  | [] => []
  | .write artifact text :: rest => (artifact, text) :: writes rest
  | .tell _ :: rest => writes rest

/-- Whether a report knows of no failure to write a file. -/
def Report.Settles (report : Report) (artifact : Artifact) : Prop :=
  ∀ failure ∈ report.failures, failure.1 ≠ artifact

/-- Whether a generation that ended with a report and a file tree has put a file at a location. -/
def Report.Places (report : Report) (tree : FileTree) (location : Location) (artifact : Artifact) :
    Prop :=
  report.Settles artifact ∧ tree.locate artifact.path = .ok (.taken location)

/-- The text that was last put at a location by the writes of a generation. -/
def Report.LastText (report : Report) (tree : FileTree) (location : Location)
    (writes : List (Artifact × String)) (text : String) : Prop :=
  ∃ earlier artifact later, writes = earlier ++ (artifact, text) :: later ∧
    report.Places tree location artifact ∧
    ∀ write ∈ later, ¬ report.Places tree location write.1

theorem Report.lastText_cons {report : Report} {tree : FileTree} {location : Location}
    {writes : List (Artifact × String)} {write : Artifact × String} {text : String} :
    report.LastText tree location (write :: writes) text ↔
      report.LastText tree location writes text ∨
        write.2 = text ∧ report.Places tree location write.1 ∧
          ∀ later ∈ writes, ¬ report.Places tree location later.1 := by
  constructor
  · rintro ⟨earlier, artifact, later, hWrites, hPlaces, hLater⟩
    rcases earlier with _ | ⟨first, earlier⟩
    · obtain ⟨rfl, rfl⟩ := List.cons.inj hWrites
      exact .inr ⟨rfl, hPlaces, hLater⟩
    · obtain ⟨rfl, rfl⟩ := List.cons.inj hWrites
      exact .inl ⟨earlier, artifact, later, rfl, hPlaces, hLater⟩
  · rintro (⟨earlier, artifact, later, rfl, hPlaces, hLater⟩ | ⟨rfl, hPlaces, hLater⟩)
    · exact ⟨write :: earlier, artifact, later, rfl, hPlaces, hLater⟩
    · exact ⟨[], write.1, writes, rfl, hPlaces, hLater⟩

theorem Report.LastText.places {report : Report} {tree : FileTree} {location : Location}
    {writes : List (Artifact × String)} {text : String}
    (h : report.LastText tree location writes text) :
    ∃ artifact, (artifact, text) ∈ writes ∧ report.Places tree location artifact := by
  obtain ⟨earlier, artifact, later, rfl, hPlaces, -⟩ := h
  exact ⟨artifact, by simp, hPlaces⟩

/-- Where a file was put, one was put last. -/
theorem Report.exists_lastText {report : Report} {tree : FileTree} {location : Location}
    {writes : List (Artifact × String)}
    (h : ∃ write ∈ writes, report.Places tree location write.1) :
    ∃ text, report.LastText tree location writes text := by
  induction writes with
  | nil => simp at h
  | cons write rest ih =>
    by_cases hRest : ∃ later ∈ rest, report.Places tree location later.1
    · obtain ⟨text, hText⟩ := ih hRest
      exact ⟨text, lastText_cons.mpr (.inl hText)⟩
    · obtain ⟨other, hOther, hPlaces⟩ := h
      rcases List.mem_cons.mp hOther with rfl | hLater
      · exact ⟨_, lastText_cons.mpr (.inr ⟨rfl, hPlaces, fun later hLater hPlaces =>
          hRest ⟨later, hLater, hPlaces⟩⟩)⟩
      · exact absurd ⟨other, hLater, hPlaces⟩ hRest

namespace Job

variable {steps : List Step} {report result : Report} {workspace after : Workspace}

theorem add_failures (report : Report) (artifact : Artifact) (outcome : Except Fault Bool) :
    (report.add artifact outcome).failures =
      match outcome with
      | .error fault => report.failures ++ [(artifact, fault)]
      | .ok _ => report.failures := by
  rcases outcome with fault | written
  · rfl
  · cases written <;> rfl

theorem settles_add {artifact other : Artifact} {outcome : Except Fault Bool}
    (h : report.Settles other) (hOther : artifact ≠ other) :
    (report.add artifact outcome).Settles other := by
  intro failure hFailure
  rw [add_failures] at hFailure
  cases outcome with
  | ok written => exact h failure hFailure
  | error fault =>
    rcases List.mem_append.mp hFailure with hOld | hOwn
    · exact h failure hOld
    · rw [List.mem_singleton.mp hOwn]
      exact hOther

/-- Failures are only added, and each is that of a file among the steps. -/
theorem take_failures (h : take steps report workspace = (.ok result, after)) :
    (∀ failure ∈ report.failures, failure ∈ result.failures) ∧
      ∀ failure ∈ result.failures, failure ∈ report.failures ∨
        ∃ write ∈ Step.writes steps, write.1 = failure.1 := by
  induction steps generalizing report workspace with
  | nil =>
    obtain ⟨rfl, -⟩ := take_nil h
    exact ⟨fun _ h => h, fun _ h => .inl h⟩
  | cons step rest ih =>
    cases step with
    | write artifact text =>
      obtain ⟨outcome, mid, -, hRest⟩ := take_write h
      obtain ⟨hKept, hNew⟩ := ih hRest
      rw [add_failures] at hKept hNew
      refine ⟨fun failure hFailure => hKept failure ?_, fun failure hFailure => ?_⟩
      · cases outcome with
        | error fault => exact List.mem_append_left _ hFailure
        | ok written => exact hFailure
      · rcases hNew failure hFailure with hOld | ⟨write, hWrite, hSame⟩
        · cases outcome with
          | error fault =>
            rcases List.mem_append.mp hOld with hOld | hOwn
            · exact .inl hOld
            · rw [List.mem_singleton.mp hOwn]
              exact .inr ⟨_, List.mem_cons_self, rfl⟩
          | ok written => exact .inl hOld
        · exact .inr ⟨write, List.mem_cons_of_mem _ hWrite, hSame⟩
    | tell notice =>
      obtain ⟨mid, -, hRest⟩ := take_tell h
      exact ih hRest

/-- Every file among the steps is either a failure in the report, or its path leads to a file. -/
theorem take_settles (h : take steps report workspace = (.ok result, after)) :
    ∀ write ∈ Step.writes steps, (∃ fault, (write.1, fault) ∈ result.failures) ∨
      ∃ location content, after.tree.locate write.1.path = .ok (.taken location) ∧
        after.tree.node? location = some (.file content) := by
  induction steps generalizing report workspace with
  | nil => simp [Step.writes]
  | cons step rest ih =>
    cases step with
    | tell notice =>
      obtain ⟨mid, -, hRest⟩ := take_tell h
      exact ih hRest
    | write artifact text =>
      obtain ⟨outcome, mid, hWriting, hRest⟩ := take_write h
      simp only [Step.writes, List.forall_mem_cons]
      refine ⟨?_, ih hRest⟩
      cases hWriting with
      | @failed fault _ gains =>
        exact .inl ⟨fault, (take_failures hRest).1 _ (by simp [add_failures])⟩
      | @settled _ _ location grows leads holds others =>
        have hWithin := (take_grows hRest).within
        obtain ⟨content, hNode⟩ := hWithin.file holds
        exact .inr ⟨location, content, hWithin.locate leads, hNode⟩

/-- After steps were taken, the file at a location has the text that was last put there, or is as it
was before if none was. -/
theorem take_file_iff (h : take steps report workspace = (.ok result, after))
    (hNodup : ((Step.writes steps).map (·.1)).Nodup)
    (hReport : ∀ write ∈ Step.writes steps, report.Settles write.1) (location : Location)
    (content : ByteArray) :
    after.tree.node? location = some (.file content) ↔
      (∃ text, result.LastText after.tree location (Step.writes steps) text ∧
        text.toUTF8 = content) ∨
      (∀ write ∈ Step.writes steps, ¬ result.Places after.tree location write.1) ∧
        workspace.tree.node? location = some (.file content) := by
  induction steps generalizing report workspace with
  | nil =>
    obtain ⟨rfl, rfl⟩ := take_nil h
    simp [Step.writes, Report.LastText]
  | cons step rest ih =>
    cases step with
    | tell notice =>
      obtain ⟨mid, hTree, hRest⟩ := take_tell h
      rw [← hTree]
      exact ih hRest hNodup hReport
    | write artifact text =>
      obtain ⟨outcome, mid, hWriting, hRest⟩ := take_write h
      simp only [Step.writes, List.map_cons, List.nodup_cons] at hNodup
      simp only [Step.writes, List.forall_mem_cons] at hReport
      have hOthers : ∀ write ∈ Step.writes rest, artifact ≠ write.1 := fun write hWrite hSame =>
        hNodup.1 (List.mem_map.mpr ⟨write, hWrite, hSame.symm⟩)
      have hSettles : ∀ write ∈ Step.writes rest, (report.add artifact outcome).Settles write.1 :=
        fun write hWrite => settles_add (hReport.2 write hWrite) (hOthers write hWrite)
      have hFailures := take_failures hRest
      have ih := ih hRest hNodup.2 hSettles
      simp only [Step.writes, Report.lastText_cons, List.forall_mem_cons]
      cases hWriting with
      | @failed fault _ gains =>
        have hFailed : ¬ result.Places after.tree location artifact := fun hPlaces =>
          hPlaces.1 (artifact, fault) (hFailures.1 _ (by simp [add_failures])) rfl
        rw [ih, gains.file_iff]
        simp [hFailed]
      | @settled written mid place grows leads holds others =>
        have hLeads := (take_grows hRest).within.locate leads
        have hSettled : result.Settles artifact := by
          intro failure hFailure
          rcases hFailures.2 failure hFailure with hOld | ⟨write, hWrite, hSame⟩
          · exact hReport.1 failure (by simpa [add_failures] using hOld)
          · rw [← hSame]
            exact fun h => hOthers write hWrite h.symm
        have hPlaces : result.Places after.tree location artifact ↔ location = place := by
          rw [Report.Places, hLeads]
          simp [hSettled, eq_comm]
        by_cases hPlace : location = place
        · subst hPlace
          rw [ih, holds]
          simp [hPlaces, or_and_right, exists_or, and_assoc]
        · rw [ih, others location hPlace]
          simp only [hPlaces, hPlace, not_false_eq_true, true_and, false_and, and_false, or_false]

end Job

end EntityGen
