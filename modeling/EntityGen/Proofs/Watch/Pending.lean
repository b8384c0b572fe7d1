import EntityGen.Proofs.Generation.Reported
import EntityGen.Proofs.Watch.Mirror

/-! Files that could not be written when a watch handled a change. Their failures are in the report of
the generation, and a watch takes the document for its snapshot whatever the report says. So the next
call finds the document as it was and reports nothing, and what could not be written stays so. -/

namespace EntityGen.Watch

open Files (FileTree Path)
open Yaml (Value)

variable {watch : Watch} {snapshots : Snapshots} {workspace after later : Workspace} {value : Value}
  {handled : Handled}

/-- A document that is as it was taken is not reported. -/
theorem reports_eq_nil (hSnapshot : snapshots.find? watch.path = some value)
    (hDocument : DocumentAt later.tree watch.path value) :
    watch.reports ⟨later, snapshots⟩ .handle = [] := by
  have hSame : changedKeys (some value) value = [] := by
    obtain ⟨text, -, hParse⟩ := hDocument
    exact changedKeys_self (Yaml.parse?_distinct hParse)
  have hFound := documentAt?_eq_some_iff.mpr hDocument
  have hHandling := watch.handle_run snapshots later
  rw [hSnapshot] at hHandling
  rw [reports]
  generalize watch.handle snapshots later = run at hHandling ⊢
  cases hHandling with
  | unparsed => rfl
  | unchanged => rfl
  | received document changed =>
    obtain rfl := Option.some.inj (hFound.symm.trans document)
    exact absurd hSame changed
  | generated document changed =>
    obtain rfl := Option.some.inj (hFound.symm.trans document)
    exact absurd hSame changed
  | failed => rfl

/-- A watch without a receiver that reports changes has generated them, and takes the document,
whatever the report of the generation says. -/
theorem handle_generated (hReceiver : watch.hasReceiver = false)
    (hDocument : DocumentAt workspace.tree watch.path value)
    (hRun : watch.handle snapshots workspace = (.ok handled, after)) (hSome : handled.changes ≠ []) :
    handled.snapshots = snapshots.put watch.path value ∧ ∃ report told, told.tree = workspace.tree ∧
      watch.regenerate handled.changes told = (.ok report, after) := by
  have hFound := documentAt?_eq_some_iff.mpr hDocument
  have hHandling := watch.handle_run snapshots workspace
  rw [hRun] at hHandling
  cases hHandling with
  | unparsed => exact absurd rfl hSome
  | unchanged => exact absurd rfl hSome
  | received _ _ receiver => simp [hReceiver] at receiver
  | generated document _ _ kept run =>
    obtain rfl := Option.some.inj (hFound.symm.trans document)
    exact ⟨rfl, _, _, kept, run⟩

/-- When a watch without a receiver has handled a change, the next call reports nothing as long as the
document stays as it is. So a model that was reported has its files, or is reported once more, just if
no file of it is among the failures in the report of the generation; where there are links in the
mappers directory, files may stand in for each other. -/
theorem handle_pending_iff (watch : Watch) (snapshots : Snapshots) (workspace after : Workspace)
    (value : Value) (names : List String) (handled : Handled)
    (hReceiver : watch.hasReceiver = false) (hFormat : watch.options.format = false)
    (hProper : workspace.tree.Proper) (hDocument : DocumentAt workspace.tree watch.path value)
    (hNames : watch.kind.Accepts value names) (hStems : (names.map Naming.stem).Nodup)
    (hRun : watch.handle snapshots workspace = (.ok handled, after)) (hSome : handled.changes ≠ []) :
    ∃ report told, told.tree = workspace.tree ∧
      watch.regenerate handled.changes told = (.ok report, after) ∧
      ∀ later, DocumentAt later.tree watch.path value →
        let next := watch.reports ⟨later, handled.snapshots⟩ .handle
        next = [] ∧
        ((∀ location, (workspace.tree.createDirAll watch.directory).1.Leads watch.directory location →
            workspace.tree.NoLinkBelow location) →
          ∀ name ∈ names, name ∈ handled.changes →
            let files := watch.generator.filesOf watch.kind watch.directory value name
            ((∀ file ∈ files, after.tree.read file.1.path = .ok file.2.toUTF8) ∨ name ∈ next ↔
              ∀ file ∈ files, report.Settles file.1)) := by
  obtain ⟨hSnapshots, report, told, hTold, hReport⟩ :=
    handle_generated hReceiver hDocument hRun hSome
  refine ⟨report, told, hTold, hReport, fun later hLater => ?_⟩
  have hNext : watch.reports ⟨later, handled.snapshots⟩ .handle = [] :=
    reports_eq_nil (hSnapshots ▸ snapshots.find?_put_self watch.path value) hLater
  refine ⟨hNext, fun hLinks name hName hChanged => ?_⟩
  intro files
  rw [← hTold] at hProper hDocument hLinks
  rw [regenerate] at hReport
  have hReads := Generator.generate_reads_iff hProper hDocument hNames hStems hLinks hReport hFormat
    hName (by simpa [Options.includes] using hChanged)
  simp only [hNext, List.not_mem_nil, or_false]
  exact forall₂_congr hReads

/-- The text of a schema of one model. -/
def oneModelText : String := "A:\n  type: model\n"

/-- The schema, and a directory where the file of the model belongs. -/
def obstructed : FileTree where
  entries := [(["m"], .directory), (["m", "a"], .directory), (["m", "a", "a.model.ts"], .directory),
    (["schema.tw"], .file oneModelText.toUTF8)]

/-- The model is reported, its file cannot be written, and it is not reported again. -/
theorem pending_obstructed : ∃ value handled after report told, obstructed.Proper ∧
    DocumentAt obstructed "schema.tw" value ∧ DocumentKind.schema.Accepts value ["A"] ∧
    generating.handle {} { tree := obstructed } = (.ok handled, after) ∧ handled.changes = ["A"] ∧
    generating.regenerate handled.changes told = (.ok report, after) ∧
    DocumentAt after.tree "schema.tw" value ∧
    "A" ∉ generating.reports ⟨after, handled.snapshots⟩ .handle ∧
    ¬ ∀ file ∈ plainGenerator.filesOf .schema "m" value "A", report.Settles file.1 := by
  have hEvaluated : ((Yaml.parse? oneModelText).any fun value =>
      ((Schema.ofValue value).toOption.any fun schema => schema.models.map (·.1) == ["A"]) &&
      (generating.handle {} { tree := obstructed }).1.toOption.any (·.changes == ["A"]) &&
      let after := (generating.handle {} { tree := obstructed }).2.tree
      after.holds "schema.tw" oneModelText.toUTF8 &&
        (plainGenerator.filesOf .schema "m" value "A").any fun file =>
          !after.holds file.1.path file.2.toUTF8) = true := by
    decide +kernel
  obtain ⟨value, hParse, hEvaluated⟩ := (Option.any_eq_true _ _).mp hEvaluated
  simp only [Bool.and_eq_true, List.any_eq_true, Bool.not_eq_true'] at hEvaluated
  obtain ⟨⟨hSchema, hChanges⟩, hDocument, file, hFile, hMissing⟩ := hEvaluated
  rcases hRead : Schema.ofValue value with cause | schema
  · simp [hRead, Except.toOption] at hSchema
  have hNames : DocumentKind.schema.Accepts value ["A"] :=
    ⟨schema, hRead, Eq.symm (by simpa [hRead, Except.toOption] using hSchema)⟩
  rcases hRun : generating.handle {} { tree := obstructed } with ⟨fault | handled, after⟩
  · simp [hRun, Except.toOption] at hChanges
  rw [hRun] at hDocument hMissing hChanges
  have hReported : handled.changes = ["A"] := by simpa [Except.toOption] using hChanges
  have hProper : obstructed.Proper := by decide
  have hAt {tree : FileTree} (h : tree.holds "schema.tw" oneModelText.toUTF8 = true) :
      DocumentAt tree "schema.tw" value :=
    ⟨oneModelText, Files.FileTree.readText_eq_ok_iff.mpr
      ⟨_, Files.FileTree.holds_eq_true_iff.mp h, by decide +kernel⟩, hParse⟩
  have hStart : DocumentAt obstructed "schema.tw" value := hAt (by decide +kernel)
  have hPlain : ∀ entry ∈ obstructed.entries, ∀ target, entry.2 ≠ .link target := by
    simp [obstructed]
  obtain ⟨report, told, -, hReport, hPending⟩ := handle_pending_iff generating {}
    { tree := obstructed } after value ["A"] handled rfl rfl hProper hStart hNames (by decide) hRun
    (by simp [hReported])
  obtain ⟨hNext, hSettled⟩ := hPending after (hAt hDocument)
  have hSilent : "A" ∉ generating.reports ⟨after, handled.snapshots⟩ .handle := by simp [hNext]
  refine ⟨value, handled, after, report, told, hProper, hStart, hNames, rfl, hReported, hReport,
    hAt hDocument, hSilent, fun hAll => ?_⟩
  rcases (hSettled (fun location _ => hProper.noLinkBelow hPlain location) "A" (by simp)
    (by simp [hReported])).mpr hAll with hHolds | hAgain
  · rw [Files.FileTree.holds_eq_true_iff.mpr (hHolds file hFile)] at hMissing
    cases hMissing
  · exact hSilent hAgain

end EntityGen.Watch
