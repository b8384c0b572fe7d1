import EntityGen.Proofs.Generation.RulesetRuns

/-! What becomes of each of the files that steps write: it is written, found unchanged, or fails. That
depends on what is at two places only, that of the file and that of the directory of its model, and
writing another file leaves both as they are, unless it has to create the directory for both. So of
each file becomes what would if it were the only one, and its failure is no more than that. -/

namespace EntityGen

open Files (FileTree IsName Location Node Path)

/-- What becomes of a file. -/
inductive Verdict where
  | written
  | unchanged
  | failed
deriving DecidableEq, Repr

namespace Verdict

def of : Except Fault Bool → Verdict
  | .ok true => .written
  | .ok false => .unchanged
  | .error _ => .failed

theorem of_eq_failed_iff {outcome : Except Fault Bool} :
    of outcome = .failed ↔ ∀ written, outcome ≠ .ok written := by
  rcases outcome with fault | written
  · simp [of]
  · cases written <;> simp [of]

theorem eq_of_iff {first second : Verdict} (hUnchanged : first = .unchanged ↔ second = .unchanged)
    (hFailed : first = .failed ↔ second = .failed) : first = second := by
  cases first <;> cases second <;> simp_all

end Verdict

/-- What becomes of a file that is written into a file tree with a text. -/
def Files.FileTree.verdict (tree : FileTree) (file : Artifact × String) : Verdict :=
  .of (Job.writeIfChanged file.1.path file.2 { tree }).1

/-- The files of a verdict in a report. -/
def Report.filed (report : Report) : Verdict → List Artifact
  | .written => report.written
  | .unchanged => report.unchanged
  | .failed => report.failures.map (·.1)

theorem Report.filed_add (report : Report) (artifact : Artifact) (outcome : Except Fault Bool)
    (verdict : Verdict) : (report.add artifact outcome).filed verdict =
      report.filed verdict ++ if Verdict.of outcome = verdict then [artifact] else [] := by
  rcases outcome with fault | written
  · cases verdict <;> simp [filed, add, Verdict.of]
  · cases written <;> cases verdict <;> simp [filed, add, Verdict.of]

theorem Job.writeIfChanged_blind (path : Path) (text : String) :
    Blind (writeIfChanged path text) := by
  refine .bind .tree fun tree => ?_
  split
  · exact .pure false
  · refine .bind ?_ fun _ => .pure true
    rw [writeFile]
    rcases path.parent? with _ | around
    · exact .bind .tree fun _ => .replaceTree _ _
    · exact .bind (.createDirAll _ _) fun _ => .bind .tree fun _ => .replaceTree _ _

theorem Job.verdict_of_run {file : Artifact × String} {workspace last : Workspace}
    {outcome : Except Fault Bool}
    (h : writeIfChanged file.1.path file.2 workspace = (outcome, last)) :
    Verdict.of outcome = workspace.tree.verdict file := by
  have hSame := (writeIfChanged_blind file.1.path file.2 workspace { tree := workspace.tree } rfl).1
  rw [FileTree.verdict, ← hSame, h]

variable {path : Path} {directory : Location} {stems : List String} {artifact : Artifact}
  {text : String} {file : Artifact × String} {tree before after : FileTree}
  {workspace last : Workspace}

/-- A file is unchanged just if its path held its text. -/
theorem Files.FileTree.verdict_eq_unchanged_iff :
    tree.verdict file = .unchanged ↔ tree.read file.1.path = .ok file.2.toUTF8 := by
  rw [← holds_eq_true_iff, verdict, Job.writeIfChanged, Job.bind_run_ok (Job.tree_run _)]
  split
  · rename_i hHolds
    exact iff_of_true rfl hHolds
  · rename_i hOther
    refine iff_of_false ?_ hOther
    rcases hFile : Job.writeFile file.1.path file.2 { tree } with ⟨fault | _, last⟩
    · rw [Job.bind_run_error hFile]
      exact Verdict.noConfusion
    · rw [Job.bind_run_ok hFile]
      exact Verdict.noConfusion

/-! ### Where two files are apart -/

/-- Writing the first of two files does not get in the way of the second: their places are different,
and where their models share a directory it is there. -/
structure Files.FileTree.Apart (tree : FileTree) (directory : Location)
    (first second : Artifact × String) : Prop where
  place : second.1.place directory ≠ first.1.place directory
  around : Naming.stem second.1.model = Naming.stem first.1.model →
    tree.node? (directory ++ [Naming.stem first.1.model]) = some .directory

theorem Files.FileTree.Apart.within {first second : Artifact × String}
    (h : before.Apart directory first second) (hWithin : before.Within after) :
    after.Apart directory first second where
  place := h.place
  around := fun hStem => hWithin.directory (h.around hStem)

namespace Artifact.BelongsTo

section

variable (h : artifact.BelongsTo path stems)
include h

/-- In a directory whose path is one, the path of a file is one unless it is too long. -/
theorem pathFault?_path
    (hFault : FileTree.pathFault? (Path.join path (Naming.stem artifact.model)) = none)
    (hFits : artifact.path.utf8ByteSize ≤ Files.maxPathSize) :
    FileTree.pathFault? artifact.path = none := by
  have hStem := Path.isAbsolute_of_noSlash h.isSegment_stem.noSlash
  have hFile := Path.isAbsolute_of_noSlash h.isSegment_fileName.noSlash
  have hZero := (Path.pathFault?_eq_none_iff.mp hFault).1
  have hName : '\x00' ∉ (Naming.stem artifact.model).toList := fun hMem =>
    hZero ((Path.mem_join hStem (by decide)).mpr (.inr hMem))
  have hKind : ∀ kind : ArtifactKind, '\x00' ∉ kind.suffix.toList := by
    intro kind
    cases kind <;> decide
  refine Path.pathFault?_eq_none_iff.mpr ⟨?_, ?_, hFits⟩
  · rw [h.path_eq, Path.mem_join hFile (by decide)]
    simp [hZero, hName, hKind, ArtifactKind.fileName]
  · rw [h.path_eq]
    exact Path.join_ne_empty h.isSegment_fileName.notEmpty

theorem read_eq_ok_iff (hAnchored : tree.Anchored path directory) {content : ByteArray} :
    tree.read artifact.path = .ok content ↔ FileTree.pathFault? artifact.path = none ∧
      tree.node? (directory ++ [Naming.stem artifact.model]) = some .directory ∧
        tree.node? (artifact.place directory) = some (.file content) := by
  rw [Files.FileTree.read_eq_ok_iff]
  constructor
  · rintro ⟨place, hPlace, hNode⟩
    obtain rfl := h.place_of_locate hAnchored hPlace
    obtain ⟨hFault, -, -, hStem⟩ := h.found hAnchored hPlace
    exact ⟨hFault, hStem, hNode⟩
  · rintro ⟨hFault, hStem, hNode⟩
    exact ⟨_, h.locate_of_node hAnchored hStem hFault hNode, hNode⟩

/-- A file fails just if it cannot be written. -/
theorem verdict_eq_failed_iff (hAnchored : tree.Anchored path directory) :
    tree.verdict (artifact, text) = .failed ↔ ¬ artifact.Writable directory tree := by
  have hStart : ({ tree } : Workspace).tree.Anchored path directory := hAnchored
  rw [FileTree.verdict, Verdict.of_eq_failed_iff]
  constructor
  · intro hFailed hWritable
    obtain ⟨written, hOk⟩ := h.write_succeeds_of_writable text hStart hWritable
    exact hFailed written hOk
  · intro hNone written hOk
    rcases hRun : Job.writeIfChanged artifact.path text { tree } with ⟨outcome, last⟩
    obtain rfl : outcome = .ok written := by simpa [hRun] using hOk
    cases Job.writeIfChanged_run hRun with
    | settled grows leads holds =>
      have hLast := (h.writeIfChanged_fills hRun).anchored hStart
      exact hNone (h.writable_of_found hStart grows hLast.proper leads holds)

/-- What becomes of a file depends on what is at its place and at that of the directory of its
model. -/
theorem verdict_congr (hBefore : before.Anchored path directory)
    (hAfter : after.Anchored path directory)
    (hPlace : after.node? (artifact.place directory) = before.node? (artifact.place directory))
    (hStem : after.node? (directory ++ [Naming.stem artifact.model]) =
      before.node? (directory ++ [Naming.stem artifact.model])) :
    after.verdict (artifact, text) = before.verdict (artifact, text) := by
  refine Verdict.eq_of_iff ?_ ?_
  · rw [Files.FileTree.verdict_eq_unchanged_iff, Files.FileTree.verdict_eq_unchanged_iff,
      h.read_eq_ok_iff hAfter, h.read_eq_ok_iff hBefore, hPlace, hStem]
  · have hSame : artifact.Writable directory after ↔ artifact.Writable directory before :=
      ⟨fun ⟨hFault, hName, hFile, hDirectory⟩ => ⟨hFault, hName, hStem ▸ hFile, hPlace ▸ hDirectory⟩,
        fun ⟨hFault, hName, hFile, hDirectory⟩ =>
          ⟨hFault, hName, hStem.symm ▸ hFile, hPlace.symm ▸ hDirectory⟩⟩
    rw [h.verdict_eq_failed_iff hAfter, h.verdict_eq_failed_iff hBefore, hSame]

/-- Writing a file makes no difference to what becomes of another one that is apart. -/
theorem write_keeps_verdict {outcome : Except Fault Bool}
    (hFile : file.1.BelongsTo path stems) (hAnchored : workspace.tree.Anchored path directory)
    (hApart : workspace.tree.Apart directory (artifact, text) file)
    (hRun : Job.writeIfChanged artifact.path text workspace = (outcome, last)) :
    last.tree.verdict file = workspace.tree.verdict file := by
  have hSupply := h.writeIfChanged_supplies hAnchored hRun
  refine hFile.verdict_congr hAnchored ((h.writeIfChanged_fills hRun).anchored hAnchored) ?_ ?_
  · cases hSupply (file.1.place directory) with
    | same kept => exact kept
    | directory _ own => exact absurd own.symm (file.1.stem_ne_place _)
    | file known own =>
      rw [List.mem_singleton.mp known] at own
      exact absurd own hApart.place
  · cases hSupply (directory ++ [Naming.stem file.1.model]) with
    | same kept => exact kept
    | directory known own free =>
      rw [List.mem_singleton.mp known] at own
      have hStem := (List.cons.inj (List.append_cancel_left own)).1
      rw [hStem, hApart.around hStem] at free
      cases free
    | @file other known own => exact absurd own (other.1.stem_ne_place _)

end

end Artifact.BelongsTo

/-! ### Files that cannot be written -/

/-- The path of a file leads to a directory, or its parent cannot be made a directory. -/
def Files.FileTree.Obstructs (tree : FileTree) (artifact : Artifact) : Prop :=
  tree.hasDirectory artifact.path = true ∨
    ∃ around fault, artifact.path.parent? = some around ∧
      (tree.createDirAll around).2 = some fault

/-- The path of a file or its name is longer than a path or a name can be. -/
def Artifact.TooLong (artifact : Artifact) : Prop :=
  Files.maxPathSize < artifact.path.utf8ByteSize ∨
    Files.maxNameSize < (artifact.kind.fileName (Naming.stem artifact.model)).utf8ByteSize

/-- A file cannot be written, for what is in the file tree or for its path. -/
def Files.FileTree.Refuses (tree : FileTree) (artifact : Artifact) : Prop :=
  tree.Obstructs artifact ∨ artifact.TooLong

namespace Artifact.BelongsTo

section

variable (h : artifact.BelongsTo path stems) (hAnchored : tree.Anchored path directory)
  (hAround : tree.node? (artifact.place directory) ≠ none →
    tree.node? (directory ++ [Naming.stem artifact.model]) = some .directory)
include h hAnchored hAround

/-- The path of a file leads to what is at its place, if it is a path at all. -/
theorem nodeAt?_eq : tree.nodeAt? artifact.path =
    if FileTree.pathFault? artifact.path = none then tree.node? (artifact.place directory)
    else none := by
  split
  · rename_i hFault
    rcases hNode : tree.node? (artifact.place directory) with _ | node
    · rw [FileTree.nodeAt?]
      split
      · rename_i place hPlace
        rw [h.place_of_locate hAnchored hPlace, hNode]
      · rfl
    · have hStem := hAround (by simp [hNode])
      rw [FileTree.nodeAt?, h.locate_of_node hAnchored hStem hFault hNode]
      exact hNode
  · rename_i hFault
    obtain ⟨fault, hFault⟩ := Option.ne_none_iff_exists'.mp hFault
    rw [FileTree.nodeAt?, FileTree.locate, FileTree.locateNames, hFault]

theorem hasDirectory_iff : tree.hasDirectory artifact.path = true ↔
    FileTree.pathFault? artifact.path = none ∧
      tree.node? (artifact.place directory) = some .directory := by
  rw [FileTree.hasDirectory, h.nodeAt?_eq hAnchored hAround]
  split
  · rename_i hFault
    rcases tree.node? (artifact.place directory) with _ | _ | content | target <;>
      simp [hFault, Node.isDirectory]
  · rename_i hFault
    simp [hFault]

theorem refuses_iff : tree.Refuses artifact ↔ ¬ artifact.Writable directory tree := by
  have hParent := h.parent?_path
  constructor
  · rintro ((hDirectory | ⟨around, fault, hOther, hCreate⟩) | hLong) hWritable
    · exact hWritable.noDirectory ((h.hasDirectory_iff hAnchored hAround).mp hDirectory).2
    · obtain rfl := Option.some.inj (hParent.symm.trans hOther)
      rw [hAnchored.createDirAll_join_ok (h.isName_stem hWritable.name)
        (h.pathFault?_dir hWritable.fault) hWritable.noFile] at hCreate
      cases hCreate
    · have hPath := (Path.pathFault?_eq_none_iff.mp hWritable.fault).2.2
      have hName := hWritable.name.fits
      rcases hLong with hLong | hLong <;> omega
  · intro hNone
    by_contra hAccepts
    simp only [FileTree.Refuses, FileTree.Obstructs, Artifact.TooLong, not_or, not_exists, not_and,
      Nat.not_lt] at hAccepts
    obtain ⟨⟨hDirectory, hCreate⟩, hPath, hName⟩ := hAccepts
    -- The parent can be made a directory, so that its path and name fit and no file is there.
    rcases hRun : tree.createDirAll (Path.join path (Naming.stem artifact.model)) with ⟨made, fault?⟩
    obtain rfl : fault? = none := by
      rcases fault? with _ | fault
      · rfl
      · exact absurd (by rw [hRun]) (hCreate _ fault hParent)
    obtain ⟨hLaid, hGrows, -⟩ := hAnchored.createDirAll_join h.isSegment_stem hRun
    have hInner := hLaid.dirs _ List.mem_cons_self
    have hFault := h.pathFault?_path (Files.FileTree.locate_eq_ok_iff.mp hInner.locate).1 hPath
    refine hNone ⟨hFault, h.isSegment_fileName.isName hName, fun content hFile => ?_, fun hNode =>
      hDirectory ((h.hasDirectory_iff hAnchored hAround).mpr ⟨hFault, hNode⟩)⟩
    obtain ⟨other, hOther⟩ := hGrows.within.file hFile
    rw [hInner.directory] at hOther
    cases hOther

end

/-- Nothing obstructs a file where there is nothing yet of its model, and the name of a directory
fits. -/
theorem not_obstructs (h : artifact.BelongsTo path stems)
    (hAnchored : tree.Anchored path directory)
    (hFits : IsName (Naming.stem artifact.model))
    (hFault : FileTree.pathFault? (Path.join path (Naming.stem artifact.model)) = none)
    (hFree : ∀ below, tree.node? (directory ++ Naming.stem artifact.model :: below) = none) :
    ¬ tree.Obstructs artifact := by
  rintro (hDirectory | ⟨around, fault, hParent, hCreate⟩)
  · have hNode := ((h.hasDirectory_iff hAnchored fun hFound => absurd (hFree _) hFound).mp hDirectory).2
    rw [Artifact.place, hFree] at hNode
    cases hNode
  · obtain rfl := Option.some.inj (h.parent?_path.symm.trans hParent)
    rw [hAnchored.createDirAll_join_ok hFits hFault fun content hFile => by
      rw [hFree] at hFile
      cases hFile] at hCreate
    cases hCreate

end Artifact.BelongsTo

/-! ### What becomes of the files of steps -/

namespace Job

variable {steps : List Step} {report result : Report}

/-- When steps are taken whose files are apart, of each file becomes what would if it were the only
one. -/
theorem take_filed (hAnchored : workspace.tree.Anchored path directory)
    (hSteps : ∀ write ∈ Step.writes steps, write.1.BelongsTo path stems)
    (hApart : (Step.writes steps).Pairwise (workspace.tree.Apart directory))
    (h : take steps report workspace = (.ok result, last)) (verdict : Verdict) :
    result.filed verdict = report.filed verdict ++
      ((Step.writes steps).filter fun file => workspace.tree.verdict file = verdict).map (·.1) := by
  induction steps generalizing report workspace with
  | nil =>
    obtain ⟨rfl, -⟩ := take_nil h
    simp [Step.writes]
  | cons step rest ih =>
    cases step with
    | tell notice =>
      obtain ⟨mid, hTree, hRest⟩ := take_tell h
      exact hTree ▸ ih (hTree ▸ hAnchored) hSteps (hTree ▸ hApart) hRest
    | write artifact text =>
      simp only [Step.writes, List.forall_mem_cons] at hSteps
      rw [Step.writes, List.pairwise_cons] at hApart
      obtain ⟨outcome, written, mid, hWrite, hTree, hRest⟩ := take_write_run h
      have hMid : mid.tree.Anchored path directory :=
        hTree ▸ (hSteps.1.writeIfChanged_fills hWrite).anchored hAnchored
      have hGrows : workspace.tree.Within mid.tree :=
        hTree ▸ (writeIfChanged_run hWrite).grows.within
      have hKept (file : Artifact × String) (hFile : file ∈ Step.writes rest) :
          mid.tree.verdict file = workspace.tree.verdict file :=
        hTree ▸ hSteps.1.write_keeps_verdict (hSteps.2 file hFile) hAnchored
          (hApart.1 file hFile) hWrite
      have hOwn : Verdict.of outcome = workspace.tree.verdict (artifact, text) :=
        verdict_of_run hWrite
      rw [ih hMid hSteps.2 (hApart.2.imp fun hPair => hPair.within hGrows) hRest,
        Report.filed_add, List.append_assoc, hOwn, Step.writes, List.filter_cons,
        List.filter_congr fun file hFile => by rw [hKept file hFile]]
      by_cases hVerdict : workspace.tree.verdict (artifact, text) = verdict <;> simp [hVerdict]

/-- What is at the place of a file, or below it, is as it was where the file fails. -/
theorem take_failed_kept (hAnchored : workspace.tree.Anchored path directory)
    (hSteps : ∀ write ∈ Step.writes steps, write.1.BelongsTo path stems)
    (hNodup : ((Step.writes steps).map (·.1)).Nodup)
    (hOne : ∀ first ∈ Step.writes steps, ∀ second ∈ Step.writes steps,
      first.1.place directory = second.1.place directory → first = second)
    (hReport : report.failures = []) (h : take steps report workspace = (.ok result, last))
    (hFile : file ∈ Step.writes steps) (hFailed : ¬ result.Settles file.1) (below : Location) :
    last.tree.node? (file.1.place directory ++ below) =
      workspace.tree.node? (file.1.place directory ++ below) := by
  have hLast : last.tree.Anchored path directory :=
    (take_fills (fun write hWrite => (hSteps write hWrite).eq_ofModel) h).anchored hAnchored
  cases take_supplies hAnchored hSteps h (file.1.place directory ++ below) with
  | same kept => exact kept
  | directory _ own =>
    have hLength := congrArg List.length own
    simp only [Artifact.place, List.length_append, List.length_cons, List.length_nil] at hLength
    omega
  | @file other known own _ written =>
    have hBelow : below = [] := by
      have hLength := congrArg List.length own
      simp only [Artifact.place, List.length_append, List.length_cons, List.length_nil] at hLength
      exact List.length_eq_zero_iff.mp (by omega)
    subst hBelow
    rw [List.append_nil] at own written ⊢
    -- No file was put at this place, so that the one that is there now was there before.
    refine written.trans (Eq.symm ?_)
    rcases (take_file_iff h hNodup (by simp [Report.Settles, hReport]) _ _).mp written with
      ⟨text, hText, -⟩ | ⟨-, hBefore⟩
    · obtain ⟨artifact, hWrite, hSettles, hPlace⟩ := hText.places
      have hSame := hOne _ hFile _ hWrite ((hSteps _ hWrite).place_of_locate hLast hPlace)
      rw [hSame] at hFailed
      exact absurd hSettles hFailed
    · exact hBefore

end Job

end EntityGen
