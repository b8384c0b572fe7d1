import EntityGen.Proofs.Generation.Gate
import EntityGen.Watch.Document

/-! What a watch does when its document changes. It compares the document with a snapshot, and hands
the names that changed to its receiver or to the generator, once. -/

namespace EntityGen

open Files (FileTree Path)
open Yaml (Value)

/-- The tree of the document at a path, if there is one that can be read and parsed. -/
def documentAt? (tree : FileTree) (path : Path) : Option Value :=
  (tree.readText path).toOption.bind Yaml.parse?

theorem documentAt?_eq_some_iff {tree : FileTree} {path : Path} {value : Value} :
    documentAt? tree path = some value ↔ DocumentAt tree path value := by
  rw [documentAt?, DocumentAt]
  rcases tree.readText path with cause | text <;> simp [Except.toOption]

namespace Watch

variable (watch : Watch) (snapshots : Snapshots) {workspace : Workspace}

theorem current_of_document {value : Value}
    (h : documentAt? workspace.tree watch.path = some value) :
    watch.current workspace = (.ok (some value), workspace) := by
  obtain ⟨text, hText, hValue⟩ := documentAt?_eq_some_iff.mp h
  simp only [current, Job.bind_run, Job.tree_run, hText, parseDocument, hValue, Job.pure_run]

/-- Where no document can be parsed, reading it gives no tree and leaves the file tree as it is. -/
theorem current_of_none (h : documentAt? workspace.tree watch.path = none) :
    ∃ result after, watch.current workspace = (result, after) ∧ after.tree = workspace.tree ∧
      ∀ value, result ≠ .ok (some value) := by
  rw [documentAt?] at h
  simp only [current, Job.bind_run, Job.tree_run]
  rcases hText : workspace.tree.readText watch.path with cause | text
  · cases cause <;> exact ⟨_, _, rfl, rfl, by simp⟩
  · have hParse : Yaml.parse? text = none := by simpa [hText, Except.toOption] using h
    simp only [parseDocument, hParse]
    exact ⟨_, _, rfl, rfl, by simp⟩

/-- Taking a snapshot keeps the file tree, and puts the document if there is one. -/
theorem seed_run : ∃ after, watch.seed snapshots workspace =
      (.ok ((documentAt? workspace.tree watch.path).elim snapshots (snapshots.put watch.path)),
        after) ∧ after.tree = workspace.tree := by
  simp only [seed, Job.bind_run, Job.outcome_run]
  rcases hDocument : documentAt? workspace.tree watch.path with _ | value
  · obtain ⟨result, after, hRun, hTree, hNone⟩ := watch.current_of_none hDocument
    refine ⟨after, ?_, hTree⟩
    rw [hRun]
    rcases result with fault | value?
    · rfl
    · cases value? with
      | none => rfl
      | some value => exact absurd rfl (hNone value)
  · refine ⟨workspace, ?_, rfl⟩
    rw [watch.current_of_document hDocument]
    rfl

end Watch

/-! ### Generating from a document that is there -/

theorem loadDocument_bind_ne_missing {α : Type} {load : Path → Value → Job α}
    (hLoad : ∀ path value workspace other, (load path value workspace).1 ≠ .error (.missing other))
    {path : Path} {workspace : Workspace} {value : Value} (h : DocumentAt workspace.tree path value)
    (other : Path) : ((loadDocument path >>= load path) workspace).1 ≠ .error (.missing other) := by
  have hOk := loadDocument_ok_iff.mpr h
  rcases hRun : loadDocument path workspace with ⟨result, after⟩
  rw [hRun] at hOk
  obtain rfl : result = .ok value := hOk
  rw [Job.bind_run_ok hRun]
  exact hLoad path value after other

theorem Schema.load_ne_missing (path : Path) (value : Value) (workspace : Workspace)
    (other : Path) : (Schema.load path value workspace).1 ≠ .error (.missing other) := by
  simp only [Schema.load, Job.bind_run, Job.tellAll_run]
  rcases ofValue value with cause | schema <;> simp

theorem Forms.load_ne_missing (path : Path) (value : Value) (workspace : Workspace)
    (other : Path) : (Forms.load path value workspace).1 ≠ .error (.missing other) := by
  simp only [Forms.load]
  rcases ofValue value with cause | forms <;> simp

/-- A generation does not fail for want of a document that can be parsed. -/
theorem Generator.generate_ne_missing (generator : Generator) (kind : DocumentKind)
    (directory path : Path) (options : Options) {workspace : Workspace} {value : Value}
    (h : DocumentAt workspace.tree path value) (other : Path) :
    (generator.generate kind directory path options workspace).1 ≠ .error (.missing other) := by
  intro hMissing
  cases kind with
  | schema =>
    have hRun := generator.schemaRun directory path options workspace
    rw [generate] at hMissing
    generalize hResult : generator.generateSchema directory path options workspace = run at *
    cases hRun with
    | unloaded hLoad _ =>
      rw [Except.error.inj hMissing] at hLoad
      exact loadDocument_bind_ne_missing Schema.load_ne_missing h other hLoad
    | empty => cases hMissing
    | dangling => cases hMissing
    | unselected => cases hMissing
    | emitted => exact generator.emitModels_failsWith _ _ _ _ _ _ hMissing
  | forms =>
    have hRun := generator.formsRun directory path options workspace
    rw [generate] at hMissing
    generalize hResult : generator.generateForms directory path options workspace = run at *
    cases hRun with
    | unloaded hLoad _ =>
      rw [Except.error.inj hMissing] at hLoad
      exact loadDocument_bind_ne_missing Forms.load_ne_missing h other hLoad
    | unselected => cases hMissing
    | emitted => exact generator.emitRulesets_failsWith _ _ _ _ _ _ hMissing

/-! ### Handling a change -/

namespace Watch

/-- How a watch handles the document that it finds, against a baseline: what the receiver is given or
what the generator is asked for, and what it answers. -/
inductive Handling (watch : Watch) (baseline : Option Value) (snapshots : Snapshots)
    (workspace : Workspace) : Except Fault Handled × Workspace → Prop
  | unparsed {after : Workspace} (document : documentAt? workspace.tree watch.path = none)
      (kept : after.tree = workspace.tree) :
      Handling watch baseline snapshots workspace (.ok { snapshots }, after)
  | unchanged {value : Value} {after : Workspace}
      (document : documentAt? workspace.tree watch.path = some value)
      (unchanged : changedKeys baseline value = []) (kept : after.tree = workspace.tree) :
      Handling watch baseline snapshots workspace
        (.ok { snapshots := snapshots.put watch.path value }, after)
  | received {value : Value} {after : Workspace}
      (document : documentAt? workspace.tree watch.path = some value)
      (changed : changedKeys baseline value ≠ []) (receiver : watch.hasReceiver = true)
      (kept : after.tree = workspace.tree) :
      Handling watch baseline snapshots workspace
        (.ok ⟨changedKeys baseline value, some (changedKeys baseline value),
          snapshots.put watch.path value⟩, after)
  | generated {value : Value} {report : Report} {told after : Workspace}
      (document : documentAt? workspace.tree watch.path = some value)
      (changed : changedKeys baseline value ≠ []) (noReceiver : watch.hasReceiver = false)
      (kept : told.tree = workspace.tree)
      (run : watch.generator.generate watch.kind watch.directory watch.path
        { watch.options with names := some (changedKeys baseline value) } told =
          (.ok report, after)) :
      Handling watch baseline snapshots workspace
        (.ok ⟨changedKeys baseline value, none, snapshots.put watch.path value⟩, after)
  | failed {value : Value} {fault : Fault} {told after : Workspace}
      (document : documentAt? workspace.tree watch.path = some value)
      (changed : changedKeys baseline value ≠ []) (noReceiver : watch.hasReceiver = false)
      (kept : told.tree = workspace.tree)
      (run : watch.generator.generate watch.kind watch.directory watch.path
        { watch.options with names := some (changedKeys baseline value) } told =
          (.error fault, after)) :
      Handling watch baseline snapshots workspace (.error fault, after)

theorem handleChanges_run (watch : Watch) (snapshots : Snapshots) {workspace : Workspace}
    {baseline : Option Value} {value : Value}
    (hDocument : documentAt? workspace.tree watch.path = some value)
    (hChanged : changedKeys baseline value ≠ []) :
    Handling watch baseline snapshots workspace
      (watch.handleChanges snapshots value (changedKeys baseline value) workspace) := by
  simp only [handleChanges, Job.bind_run, Job.tell_run]
  cases hReceiver : watch.hasReceiver with
  | true => exact .received hDocument hChanged hReceiver rfl
  | false =>
    simp only [Bool.false_eq_true, if_false, Job.bind_run, Job.outcome_run, regenerate]
    have hThere := documentAt?_eq_some_iff.mp hDocument
    generalize hTold : { workspace with notices := workspace.notices ++
      [Notice.regenerating watch.kind (changedKeys baseline value)] } = told
    have hKept : told.tree = workspace.tree := by rw [← hTold]
    rcases hRun : watch.generator.generate watch.kind watch.directory watch.path
      { watch.options with names := some (changedKeys baseline value) } told with
      ⟨fault | report, after⟩
    · cases fault with
      | missing other =>
        have hError := watch.generator.generate_ne_missing watch.kind watch.directory watch.path
          { watch.options with names := some (changedKeys baseline value) } (hKept ▸ hThere) other
        rw [hRun] at hError
        exact absurd rfl hError
      | _ => exact .failed hDocument hChanged hReceiver hKept hRun
    · exact .generated hDocument hChanged hReceiver hKept hRun

/-- A watch handles a change in one of these ways, against the snapshot that it finds. -/
theorem handle_run (watch : Watch) (snapshots : Snapshots) (workspace : Workspace) :
    Handling watch (snapshots.find? watch.path) snapshots workspace
      (watch.handle snapshots workspace) := by
  rcases hDocument : documentAt? workspace.tree watch.path with _ | value
  · obtain ⟨result, after, hRun, hTree, hNone⟩ := watch.current_of_none hDocument
    simp only [handle, Job.bind_run, Job.outcome_run, hRun]
    rcases result with fault | value?
    · exact .unparsed hDocument hTree
    · cases value? with
      | none => exact .unparsed hDocument hTree
      | some value => exact absurd rfl (hNone value)
  · simp only [handle, Job.bind_run, Job.outcome_run, watch.current_of_document hDocument]
    cases hChanges : changedKeys (snapshots.find? watch.path) value with
    | nil => exact .unchanged hDocument hChanges rfl
    | cons first rest =>
      have hRun := watch.handleChanges_run snapshots hDocument (hChanges ▸ List.cons_ne_nil first rest)
      rw [hChanges] at hRun
      exact hRun

end Watch

end EntityGen
