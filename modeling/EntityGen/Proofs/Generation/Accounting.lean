import EntityGen.Proofs.Generation.Outcomes
import EntityGen.Proofs.Yaml.Decision

/-! The report of a run accounts for every file of the models that the run was asked for: each is in
one of its lists, in order, and which one depends on what the run finds at the path of the file when
it begins to write. A file that is written or unchanged has its text in the end, whatever became of
the others, and where one fails nothing has changed. -/

namespace EntityGen

open Files (FileTree Location Path)
open Yaml (Value)

/-- What is at a path is the same in both trees, with all that is below. -/
structure Files.FileTree.SameAt (before after : FileTree) (path : Path) : Prop where
  node : after.nodeAt? path = before.nodeAt? path
  below : ∀ location, before.locate path = .ok (.taken location) → ∀ below,
    after.node? (location ++ below) = before.node? (location ++ below)

/-- A report accounts for files: they are different, each is written, unchanged or a failure, in
order, and which one is decided in the file tree before. In the tree after, those that did not fail
have their texts, and what is at the paths of the others is as it was. -/
structure Report.Accounts (report : Report) (before after : FileTree)
    (files : List (Artifact × String)) : Prop where
  nodup : (files.map (·.1)).Nodup
  written : report.written.Sublist (files.map (·.1))
  unchanged : report.unchanged.Sublist (files.map (·.1))
  failures : (report.failures.map (·.1)).Sublist (files.map (·.1))
  all : (report.written ++ report.unchanged ++ report.failures.map (·.1)).Perm (files.map (·.1))
  unchanged_iff : ∀ file ∈ files,
    file.1 ∈ report.unchanged ↔ before.read file.1.path = .ok file.2.toUTF8
  failed_iff : ∀ file ∈ files, file.1 ∈ report.failures.map (·.1) ↔ before.Refuses file.1
  written_iff : ∀ file ∈ files, file.1 ∈ report.written ↔
    before.read file.1.path ≠ .ok file.2.toUTF8 ∧ ¬ before.Refuses file.1
  holds : ∀ file ∈ files, file.1 ∈ report.written ++ report.unchanged →
    after.read file.1.path = .ok file.2.toUTF8
  kept : ∀ file ∈ files, file.1 ∈ report.failures.map (·.1) → before.SameAt after file.1.path

/-- A list is put together by what becomes of its members. -/
theorem Verdict.filter_perm {α : Type} (verdict : α → Verdict) (list : List α) :
    (list.filter (verdict · = .written) ++ list.filter (verdict · = .unchanged) ++
      list.filter (verdict · = .failed)).Perm list := by
  induction list with
  | nil => exact .refl _
  | cons first rest ih =>
    rcases hFirst : verdict first with _ | _ | _
    · simpa [List.filter_cons, hFirst] using ih
    · simp only [List.filter_cons, hFirst, reduceCtorEq, decide_false, decide_true, if_true,
        Bool.false_eq_true, if_false, List.append_assoc, List.cons_append] at ih ⊢
      exact List.perm_middle.trans (ih.cons first)
    · simp only [List.filter_cons, hFirst, reduceCtorEq, decide_false, decide_true, if_true,
        Bool.false_eq_true, if_false] at ih ⊢
      exact List.perm_middle.trans (ih.cons first)

theorem Report.settles_iff {report : Report} {artifact : Artifact} :
    report.Settles artifact ↔ artifact ∉ report.failures.map (·.1) := by
  simp only [Settles, List.mem_map, not_exists, not_and]

/-- A report without files accounts for none. -/
theorem Report.accounts_nil (before after : FileTree) :
    ({} : Report).Accounts before after [] := by
  constructor <;> simp

section

variable {generator : Generator} {kind : DocumentKind} {directory path : Path} {options : Options}
  {value : Value} {names : List String} {location : Location} {forms : Forms} {steps : List Step}
  {report : Report} {workspace made last : Workspace}

namespace Generator.Taken

variable (h : generator.Taken kind directory location options value names steps report workspace
  made last)
include h

/-- The files of a run are apart. -/
theorem apart : (Step.writes steps).Pairwise (made.tree.Apart location) := by
  refine (h.nodup.of_map).pairwise_of_forall_ne fun first hFirst second hSecond hOther => ?_
  refine ⟨fun hPlace => hOther (h.one first hFirst second hSecond hPlace.symm), fun hStem => ?_⟩
  exact h.shared first hFirst second hSecond hStem.symm hOther

theorem filed (verdict : Verdict) : report.filed verdict =
    ((Step.writes steps).filter fun file => made.tree.verdict file = verdict).map (·.1) := by
  obtain ⟨_, hTake⟩ := h.taken
  rw [Job.take_filed h.anchored h.belongs h.apart hTake]
  cases verdict <;> rfl

theorem filed_sublist (verdict : Verdict) :
    (report.filed verdict).Sublist ((Step.writes steps).map (·.1)) := by
  rw [h.filed]
  exact List.filter_sublist.map _

theorem mem_filed_iff {file : Artifact × String} (hFile : file ∈ Step.writes steps)
    (verdict : Verdict) : file.1 ∈ report.filed verdict ↔ made.tree.verdict file = verdict := by
  rw [h.filed, List.mem_map]
  constructor
  · rintro ⟨other, hOther, hSame⟩
    obtain ⟨hMember, hVerdict⟩ := List.mem_filter.mp hOther
    obtain rfl := List.inj_on_of_nodup_map h.nodup hMember hFile hSame
    simpa using hVerdict
  · exact fun hVerdict => ⟨file, List.mem_filter.mpr ⟨hFile, by simpa using hVerdict⟩, rfl⟩

variable (hGrounded : workspace.tree.Grounded)
include hGrounded

/-- What is at the path of a file that fails is as it was. -/
theorem sameAt {file : Artifact × String} (hFile : file ∈ Step.writes steps)
    (hFailed : file.1 ∈ report.failures.map (·.1)) : made.tree.SameAt last.tree file.1.path := by
  obtain ⟨_, hTake⟩ := h.taken
  have hBelongs := h.belongs file hFile
  have hAround := h.around hGrounded file hFile
  have hLast : last.tree.Anchored directory location :=
    (Job.take_fills (fun write hWrite => (h.belongs write hWrite).eq_ofModel) hTake).anchored
      h.anchored
  have hKept := Job.take_failed_kept h.anchored h.belongs h.nodup h.one rfl hTake hFile
    (fun hSettles => Report.settles_iff.mp hSettles hFailed)
  have hPlace : last.tree.node? (file.1.place location) = made.tree.node? (file.1.place location) := by
    simpa using hKept []
  refine ⟨?_, fun place hFound below => ?_⟩
  · rw [hBelongs.nodeAt?_eq h.anchored hAround, hBelongs.nodeAt?_eq hLast, hPlace]
    rw [hPlace]
    exact fun hFound => (Job.take_grows hTake).within.directory (hAround hFound)
  · rw [hBelongs.place_of_locate h.anchored hFound]
    exact hKept below

/-- The report of a run accounts for its files. -/
theorem accounts : report.Accounts made.tree last.tree (Step.writes steps) := by
  obtain ⟨_, hTake⟩ := h.taken
  have hUnchanged (file : Artifact × String) (hFile : file ∈ Step.writes steps) :
      file.1 ∈ report.unchanged ↔ made.tree.read file.1.path = .ok file.2.toUTF8 :=
    (h.mem_filed_iff hFile .unchanged).trans Files.FileTree.verdict_eq_unchanged_iff
  have hFailed (file : Artifact × String) (hFile : file ∈ Step.writes steps) :
      file.1 ∈ report.failures.map (·.1) ↔ made.tree.Refuses file.1 := by
    have hBelongs := h.belongs file hFile
    rw [hBelongs.refuses_iff h.anchored (h.around hGrounded file hFile),
      ← hBelongs.verdict_eq_failed_iff h.anchored]
    exact h.mem_filed_iff hFile .failed
  have hWritten (file : Artifact × String) (hFile : file ∈ Step.writes steps) :
      file.1 ∈ report.written ↔
        file.1 ∉ report.unchanged ∧ file.1 ∉ report.failures.map (·.1) := by
    have hFiled := h.mem_filed_iff hFile
    simp only [Report.filed] at hFiled
    rw [hFiled .written, hFiled .unchanged, hFiled .failed]
    cases made.tree.verdict file <;> simp
  refine ⟨h.nodup, ?_, ?_, ?_, ?_, hUnchanged, hFailed, fun file hFile => ?_, fun file hFile hMem => ?_,
    fun file hFile => h.sameAt hGrounded hFile⟩
  · exact h.filed_sublist .written
  · exact h.filed_sublist .unchanged
  · exact h.filed_sublist .failed
  · have hAll := (Verdict.filter_perm made.tree.verdict (Step.writes steps)).map (·.1)
    rw [List.map_append, List.map_append, ← h.filed, ← h.filed, ← h.filed] at hAll
    exact hAll
  · rw [hWritten file hFile, hUnchanged file hFile, hFailed file hFile]
  · refine (Job.take_reads_iff h.anchored h.belongs h.nodup (fun first hFirst second hSecond hPlace =>
      congrArg Prod.snd (h.one first hFirst second hSecond hPlace)) rfl hTake hFile).mpr ?_
    rw [Report.settles_iff]
    rcases List.mem_append.mp hMem with hOwn | hOwn
    · exact ((hWritten file hFile).mp hOwn).2
    · intro hBoth
      have hFiled := h.mem_filed_iff hFile
      have hFirst := (hFiled .unchanged).mp hOwn
      rw [(hFiled .failed).mp hBoth] at hFirst
      cases hFirst

/-- A file that is called too long is a failure. -/
theorem failed_of_tooLong {artifact : Artifact}
    (hAsked : artifact ∈ kind.outputs directory (names.filter options.includes))
    (hLong : artifact.TooLong) : artifact ∈ report.failures.map (·.1) := by
  rw [← h.models] at hAsked
  obtain ⟨file, hFile, rfl⟩ := List.mem_map.mp hAsked
  exact ((h.accounts hGrounded).failed_iff file hFile).mpr (.inr hLong)

end Generator.Taken

/-- A run that is asked for none of the models of its document reports nothing. -/
theorem Generator.generate_unasked (hDocument : DocumentAt workspace.tree path value)
    (hNames : kind.Accepts value names) (hNone : names.filter options.includes = [])
    (h : generator.generate kind directory path options workspace = (.ok report, last)) :
    report = {} := by
  cases kind with
  | schema =>
    obtain ⟨schema, hRead, rfl⟩ := hNames
    have hLoad := loadSchema_ok_iff.mpr ⟨value, hDocument, hRead⟩
    have hResolved := (generator.schemaRun directory path options workspace).resolved_of_ok hLoad
      (congrArg Prod.fst h)
    rw [← Options.selectModels_fst, List.map_eq_nil_iff] at hNone
    obtain ⟨_, hRun, -⟩ := generateSchema_unasked hLoad hResolved hNone
    exact Except.ok.inj (Prod.mk.inj (h.symm.trans hRun)).1
  | forms =>
    obtain ⟨forms, hRead, rfl⟩ := hNames
    have hLoad := loadForms_ok_iff.mpr ⟨value, hDocument, hRead⟩
    have hWay := generator.formsRun directory path options workspace
    rw [show generator.generateForms directory path options workspace = _ from h] at hWay
    generalize hEnd : (Except.ok report, last) = run at hWay
    cases hWay with
    | unloaded => cases hEnd
    | unselected => exact Except.ok.inj (Prod.mk.inj hEnd).1
    | @emitted read _ load selected =>
      obtain rfl : forms = read := by simpa [hLoad] using load
      rw [← Options.selectForms_fst, List.map_eq_nil_iff] at hNone
      exact absurd hNone selected

/-- A successful run without the formatter reports the models that it was asked for, in the order of
the document, and accounts for their files, from the file tree that it had prepared on. -/
theorem Generator.generate_accounts (hGrounded : workspace.tree.Grounded)
    (hDocument : DocumentAt workspace.tree path value) (hNames : kind.Accepts value names)
    (hStems : (names.map Naming.stem).Nodup)
    (hLinks : ∀ location, (workspace.tree.createDirAll directory).1.Leads directory location →
      workspace.tree.NoLinkBelow location)
    (hFormat : options.format = false)
    (h : generator.generate kind directory path options workspace = (.ok report, last)) :
    let asked := names.filter options.includes
    let files := asked.flatMap (generator.filesOf kind directory value)
    let prepared := kind.prepare directory names workspace
    report.models = asked ∧ files.map (·.1) = kind.outputs directory asked ∧
      (asked ≠ [] → prepared.1 = .ok report.removed) ∧
      report.Accounts prepared.2.tree last.tree files := by
  intro asked files prepared
  by_cases hNone : asked = []
  · obtain rfl := generate_unasked hDocument hNames hNone h
    have hFiles : files = [] := by
      simp only [files, hNone, List.flatMap_nil]
    rw [hFiles, hNone]
    exact ⟨rfl, rfl, absurd rfl, Report.accounts_nil _ _⟩
  obtain ⟨name, hName⟩ := List.exists_mem_of_ne_nil _ hNone
  have hSome : ∃ name ∈ names, options.includes name = true :=
    ⟨name, (List.mem_filter.mp hName).1, (List.mem_filter.mp hName).2⟩
  obtain ⟨location, steps, made, emitted, hLast, hTaken⟩ :=
    generate_taken hGrounded.proper hDocument hNames hStems hLinks hFormat hSome h
  obtain ⟨hRemoved, hPrepared⟩ := hTaken.prepared
  obtain ⟨_, hTake⟩ := hTaken.taken
  have hAccounts := hTaken.accounts hGrounded
  have hFiles : Step.writes steps = files := hTaken.writes
  rw [hFiles, ← hPrepared, ← hLast] at hAccounts
  have hModels := hTaken.models
  rw [hFiles] at hModels
  exact ⟨(Job.take_kept hTake).1, hModels, fun _ => hRemoved, hAccounts⟩

end

/-- A workspace with a schema of two models, of which one file has its text, one has an old text, one
is missing, and a directory is in place of one. The directory of a model that is gone is there too. -/
def beset : Workspace where
  tree :=
    { entries := [(["schema.tw"], .file (String.toUTF8 "A:\n  type: model\nB:\n  type: model\n")),
        (["m"], .directory), (["m", "old"], .directory), (["m", "a"], .directory),
        (["m", "a", "a.model.ts"], .file (TypeScript.modelText (.ofModel "A" {})).toUTF8),
        (["m", "b"], .directory), (["m", "b", "b.model.ts"], .directory),
        (["m", "b", "b.dto.ts"], .file (String.toUTF8 "export {}"))] }

/-- The file with its text is unchanged, the directory is a failure, and the other two are written. -/
theorem generate_accounts_beset : ∃ value report last,
    plainGenerator.generate .schema "m" "schema.tw" {} beset = (.ok report, last) ∧
    report.unchanged = [.ofModel "m" .model "A"] ∧
    report.written = [.ofModel "m" .transfer "A", .ofModel "m" .transfer "B"] ∧
    report.failures.map (·.1) = [.ofModel "m" .model "B"] ∧
    report.models = ["A", "B"] ∧
    (DocumentKind.schema.prepare "m" ["A", "B"] beset).1 = .ok report.removed ∧
    report.Accounts (DocumentKind.schema.prepare "m" ["A", "B"] beset).2.tree last.tree
      (["A", "B"].flatMap (plainGenerator.filesOf .schema "m" value)) := by
  obtain ⟨value, hDocument, schema, hRead, -, hNames⟩ :=
    @DocumentKind.schema_models_of_load "schema.tw" beset ["A", "B"] (by decide +kernel)
  have hEvaluated : (match plainGenerator.generate .schema "m" "schema.tw" {} beset with
      | (.ok report, _) => report.unchanged == [.ofModel "m" .model "A"] &&
          report.written == [.ofModel "m" .transfer "A", .ofModel "m" .transfer "B"] &&
          report.failures.map (·.1) == [.ofModel "m" .model "B"]
      | (.error _, _) => false) = true := by
    decide +kernel
  rcases hRun : plainGenerator.generate .schema "m" "schema.tw" {} beset with ⟨fault | report, last⟩
  · simp [hRun] at hEvaluated
  simp only [hRun, Bool.and_eq_true, beq_iff_eq] at hEvaluated
  obtain ⟨⟨hUnchanged, hWritten⟩, hFailures⟩ := hEvaluated
  have hGrounded : beset.tree.Grounded := ⟨by decide, by decide, by rfl⟩
  have hAccepts : DocumentKind.schema.Accepts value ["A", "B"] := ⟨schema, hRead, hNames⟩
  obtain ⟨hModels, -, hRemoved, hAccounts⟩ := Generator.generate_accounts hGrounded hDocument hAccepts
    (by decide) (fun location _ => hGrounded.proper.noLinkBelow (by simp [beset]) location)
    rfl hRun
  exact ⟨value, report, last, rfl, hUnchanged, hWritten, hFailures, hModels,
    hRemoved (List.cons_ne_nil _ _), hAccounts⟩

/-- A name that fits as the name of a directory, and not with the ending of a file. -/
def longName : String := String.ofList (List.replicate 248 'a')

theorem longName_toList : longName.toList = List.replicate 248 'a' := String.toList_ofList

section

set_option maxRecDepth 4000

theorem longName_size : longName.utf8ByteSize = 248 := by
  have hLength : String.utf8Len (List.replicate 248 'a') = 248 := by rfl
  exact (String.utf8ByteSize_ofList _).trans hLength

theorem longName_isModelName : isModelName longName = true := by
  simp only [isModelName, Text.allBlank, longName_toList]
  rfl

theorem stem_longName : Naming.stem longName = longName := by
  have hLower : Text.lower (Naming.hyphenate (List.replicate 248 'a')) = List.replicate 248 'a' := by
    rfl
  rw [Naming.stem, longName_toList, hLower]
  rfl

end

theorem longName_isName : Files.IsName (Naming.stem longName) := by
  refine (Naming.isSegment_stem longName_isModelName).isName ?_
  rw [stem_longName, longName_size]
  decide

theorem longName_path : FileTree.pathFault? (Path.join "m" (Naming.stem longName)) = none := by
  have hRelative := Path.isAbsolute_of_noSlash longName_isName.noSlash
  refine Path.pathFault?_eq_none_iff.mpr ⟨?_, Path.join_ne_empty longName_isName.notEmpty, ?_⟩
  · rw [Path.mem_join hRelative (by decide), stem_longName, longName_toList]
    rintro (hZero | hZero)
    · revert hZero
      decide
    · cases List.eq_of_mem_replicate hZero
  · rw [Path.join_eq hRelative, String.utf8ByteSize_append, stem_longName, longName_size]
    decide

theorem longName_tooLong : (Artifact.ofModel "m" .ruleset longName).TooLong := by
  refine .inr ?_
  rw [Artifact.ofModel, stem_longName]
  simp only [ArtifactKind.fileName, String.utf8ByteSize_append, longName_size]
  decide

/-- Forms of one model without actions. -/
theorem Forms.ofValue_bare {name : String} (h : isModelName name = true) :
    Forms.ofValue (.map [(.str name, .map [])]) = .ok ⟨[(name, [])]⟩ := by
  have hTable : Shape.table (Shape.table (Shape.table Form.readRule))
      (.map [(.str name, .map [])]) = .ok [(name, [])] := rfl
  rw [Forms.ofValue, hTable]
  simp [h]

/-- A workspace with an empty mappers directory and forms of a model with the long name. -/
def overlong : Workspace where
  tree :=
    { entries := [(["form.tw"], .file ("\"" ++ longName ++ "\": {}\n").toUTF8), (["m"], .directory)] }

theorem overlong_grounded : overlong.tree.Grounded := ⟨by decide, by decide, by rfl⟩

theorem overlong_noLinkBelow (location : Location) : overlong.tree.NoLinkBelow location :=
  overlong_grounded.proper.noLinkBelow (by simp [overlong]) location

theorem overlong_anchored : overlong.tree.Anchored "m" ["m"] :=
  ⟨overlong_grounded.proper, ⟨by rfl, by rfl⟩, overlong_noLinkBelow _⟩

theorem overlong_free (name : String) (below : Location) :
    overlong.tree.node? (["m"] ++ name :: below) = none := by
  refine Option.eq_none_iff_forall_ne_some.mpr fun node hNode => ?_
  simpa [overlong] using (overlong_grounded.proper.node?_eq_some_iff (by simp)).mp hNode

theorem overlong_document :
    DocumentAt overlong.tree "form.tw" (.map [(.str longName, .map [])]) := by
  have hText : overlong.tree.readText "form.tw" = .ok ("\"" ++ longName ++ "\": {}\n") :=
    Files.FileTree.readText_of_read rfl
  refine ⟨_, hText, ?_⟩
  -- The characters of the long name are taken from the list that it is made of.
  rw [Yaml.parse?, Yaml.Stream.ofText?]
  simp only [String.toList_append, longName_toList]
  decide +kernel

/-- A ruleset fails for the length of its name, with no directory in its place and a parent that can
be made. -/
theorem generate_fails_overlong : ∃ value report last, overlong.tree.Grounded ∧
    DocumentAt overlong.tree "form.tw" value ∧ DocumentKind.forms.Accepts value [longName] ∧
    ([longName].map Naming.stem).Nodup ∧ (∀ location, overlong.tree.NoLinkBelow location) ∧
    plainGenerator.generate .forms "m" "form.tw" {} overlong = (.ok report, last) ∧
    Artifact.ofModel "m" .ruleset longName ∈ report.failures.map (·.1) ∧
    ¬ (DocumentKind.forms.prepare "m" [longName] overlong).2.tree.Obstructs
      (.ofModel "m" .ruleset longName) := by
  have hReach (canonical : List String) (name : String)
      (hLingers : DocumentKind.forms.Lingers ["m"] canonical overlong.tree name) :
      DocumentKind.forms.OutOfReach "m" name := by
    have hFound := hLingers.stale.found
    rw [overlong_free] at hFound
    cases hFound
  have hRead := Forms.ofValue_bare longName_isModelName
  have hNames : DocumentKind.forms.Accepts (.map [(.str longName, .map [])]) [longName] :=
    ⟨_, hRead, rfl⟩
  have hStems : ([longName].map Naming.stem).Nodup := List.nodup_singleton _
  have hAsked : Options.includes {} longName = true := rfl
  have hLoad := loadForms_ok_iff.mpr ⟨_, overlong_document, hRead⟩
  have hSelected : Options.selectForms {} ⟨[(longName, [])]⟩ ≠ [] := by
    simp [Options.selectForms, Options.includes]
  obtain ⟨report, emitted, hRun⟩ :=
    plainGenerator.generateForms_formats overlong_anchored (hReach _) hLoad hSelected
  obtain ⟨location, steps, made, emitted, -, hTaken⟩ :=
    Generator.generateForms_taken overlong_grounded.proper overlong_document hNames hStems
      (fun location _ => overlong_noLinkBelow location) rfl
      ⟨longName, List.mem_singleton_self _, hAsked⟩ hRun
  refine ⟨_, report, _, overlong_grounded, overlong_document, hNames, hStems,
    overlong_noLinkBelow, hRun, hTaken.failed_of_tooLong overlong_grounded ?_ longName_tooLong, ?_⟩
  · rw [List.filter_cons_of_pos hAsked]
    exact List.mem_cons_self
  · have hPrepared : DocumentKind.forms.prepare "m" [longName] overlong = (.ok [], overlong) := by
      rw [DocumentKind.prepare, Job.bind_run_ok (Job.createDirAll_idle overlong_anchored.leads),
        Job.removeStale_idle overlong_anchored (hReach _)]
    have hBelongs : (Artifact.ofModel "m" .ruleset longName).BelongsTo "m" [Naming.stem longName] :=
      Artifact.ofModel_belongsTo longName_isModelName (List.mem_singleton_self _)
    rw [hPrepared]
    exact hBelongs.not_obstructs overlong_anchored longName_isName longName_path (overlong_free _)

end EntityGen
