import EntityGen.Proofs.Generation.Phases
import EntityGen.Proofs.Generation.Steps
import EntityGen.Proofs.Schema.References

/-! The gate before a generation. A schema run touches the file tree only after the document was
loaded and every reference in it was found to lead to an entry of the document, whichever models are
asked for. What fails after the gate are operations on files, so a fault of a reference comes from
the gate alone and names the first reference that leads nowhere. -/

namespace EntityGen

open Files (FileFault Path)
open Yaml (Value)

/-- A fault of an operation on files. -/
def Fault.IsOfFiles : Fault → Prop
  | .unwritten .. => True
  | .inaccessible .. => True
  | _ => False

namespace Job

theorem replaceTree_failsWith {kind : Fault → Prop} {blame : FileFault → Fault}
    (h : ∀ cause, kind (blame cause)) (changed : Except FileFault Files.FileTree) :
    FailsWith kind (replaceTree blame changed) := by
  rcases changed with cause | tree
  · exact .throw (h cause)
  · exact .pure ()

theorem createDirAll_failsWith {kind : Fault → Prop} {blame : FileFault → Fault}
    (h : ∀ cause, kind (blame cause)) (path : Path) : FailsWith kind (createDirAll blame path) := by
  intro workspace fault hFault
  rw [createDirAll_run] at hFault
  rcases hCause : (workspace.tree.createDirAll path).2 with _ | cause
  · simp [hCause] at hFault
  · obtain rfl : blame cause = fault := by simpa [hCause] using hFault
    exact h cause

theorem existingModelDirs_failsWith (directory : Path) :
    FailsWith Fault.IsOfFiles (existingModelDirs directory) := by
  refine .bind (fun workspace fault h => by simp at h) fun tree => ?_
  rcases tree.list directory with cause | nodes
  · exact .throw trivial
  · exact .pure _

theorem removeModelDirs_failsWith (directory : Path) :
    ∀ names, FailsWith Fault.IsOfFiles (removeModelDirs directory names)
  | [] => .pure ()
  | _ :: rest =>
    .bind (fun workspace fault h => by simp at h) fun _ =>
      .bind (replaceTree_failsWith (fun _ => trivial) _) fun _ =>
        .bind (fun workspace fault h => by simp at h) fun _ =>
          removeModelDirs_failsWith directory rest

theorem createModelDirs_failsWith (directory : Path) :
    ∀ names, FailsWith Fault.IsOfFiles (createModelDirs directory names)
  | [] => .pure []
  | name :: rest => by
    refine .bind (fun workspace fault h => by simp at h) fun tree => ?_
    split
    · exact createModelDirs_failsWith directory rest
    · exact .bind (createDirAll_failsWith (fun _ => trivial) _) fun _ =>
        .bind (fun workspace fault h => by simp at h) fun _ =>
          .bind (createModelDirs_failsWith directory rest) fun _ => .pure _

theorem reconcile_failsWith (directory : Path) (canonical : List String) :
    FailsWith Fault.IsOfFiles (reconcile directory canonical) :=
  .bind (existingModelDirs_failsWith directory) fun _ =>
    .bind (removeModelDirs_failsWith directory _) fun _ =>
      .bind (createModelDirs_failsWith directory canonical) fun _ => .pure _

theorem removeFiles_failsWith (directory : Path) (fileName : String → String) :
    ∀ names, FailsWith Fault.IsOfFiles (removeFiles directory fileName names)
  | [] => .pure []
  | name :: rest => by
    refine .bind (fun workspace fault h => by simp at h) fun tree => ?_
    split
    · exact .bind (fun workspace fault h => by simp at h) fun _ =>
        .bind (replaceTree_failsWith (fun _ => trivial) _) fun _ =>
          .bind (fun workspace fault h => by simp at h) fun _ =>
            .bind (removeFiles_failsWith directory fileName rest) fun _ => .pure _
    · exact removeFiles_failsWith directory fileName rest

theorem removeStale_failsWith (directory : Path) (canonical : List String)
    (fileName : String → String) :
    FailsWith Fault.IsOfFiles (removeStale directory canonical fileName) :=
  .bind (existingModelDirs_failsWith directory) fun _ => removeFiles_failsWith directory fileName _

theorem take_failsWith {kind : Fault → Prop} (steps : List Step) (report : Report) :
    FailsWith kind (take steps report) := by
  intro workspace fault h
  obtain ⟨result, hResult⟩ := take_ok steps report workspace
  simp [hResult] at h

end Job

namespace Generator

theorem format_run (generator : Generator) (directory : Path) (options : Options)
    (workspace : Workspace) :
    (generator.format directory options workspace).1 = .ok () ∧
      (generator.format directory options workspace).2.tree =
        generator.formatted directory options workspace.tree := by
  simp only [format, formatted]
  rcases options.format with _ | _ <;> rcases generator.command? with _ | command <;>
    simp only [Job.bind_run, Job.tell_run, Job.tree_run, Job.setTree_run, Job.pure_run,
      and_self]
  rcases generator.shell.fault? command directory with _ | cause <;> simp

theorem emitModels_failsWith (generator : Generator) (directory : Path) (options : Options)
    (schema : Schema) (selected : List (String × Model)) :
    Job.FailsWith Fault.IsOfFiles
      (generator.emitModels directory options schema selected) :=
  .bind (Job.createDirAll_failsWith (fun _ => trivial) directory) fun _ =>
    .bind (Job.reconcile_failsWith directory _) fun _ =>
      .bind (Job.take_failsWith _ _) fun _ =>
        .bind (fun workspace fault h => by
          rw [(generator.format_run directory options workspace).1] at h
          simp at h) fun _ => .pure _

theorem emitRulesets_failsWith (generator : Generator) (directory : Path) (options : Options)
    (forms : Forms) (selected : List (String × FormModel)) :
    Job.FailsWith Fault.IsOfFiles
      (generator.emitRulesets directory options forms selected) :=
  .bind (Job.createDirAll_failsWith (fun _ => trivial) directory) fun _ =>
    .bind (Job.removeStale_failsWith directory _ _) fun _ =>
      .bind (Job.take_failsWith _ _) fun _ =>
        .bind (fun workspace fault h => by
          rw [(generator.format_run directory options workspace).1] at h
          simp at h) fun _ => .pure _

end Generator

namespace SchemaRun

variable {generator : Generator} {directory path : Path} {options : Options}
  {workspace : Workspace} {run : Except Fault Report × Workspace}

/-- A document that is not loaded ends the run and leaves the file tree as it is. -/
theorem of_unloaded (h : SchemaRun generator directory path options workspace run)
    (hLoad : ∀ schema, (loadSchema path workspace).1 ≠ .ok schema) :
    (∃ fault, run.1 = .error fault) ∧ run.2.tree = workspace.tree := by
  cases h with
  | unloaded load kept => exact ⟨⟨_, rfl⟩, kept⟩
  | empty load _ _ => exact absurd load (hLoad _)
  | dangling load _ _ => exact absurd load (hLoad _)
  | unselected load _ _ _ => exact absurd load (hLoad _)
  | emitted load _ _ _ => exact absurd load (hLoad _)

variable {schema : Schema} (hLoad : (loadSchema path workspace).1 = .ok schema)
include hLoad

/-- A run of a loaded document ends with the fault of a reference just if that reference is the
first that leads nowhere. -/
theorem unresolved_iff (h : SchemaRun generator directory path options workspace run)
    {reference : Reference} :
    run.1 = .error (.unresolved reference) ↔ schema.dangling? = some reference := by
  cases h with
  | unloaded load _ => simp [hLoad] at load
  | @empty read _ load empty _ =>
    obtain rfl : schema = read := by simpa [hLoad] using load
    simp [Schema.dangling?, Schema.references, Schema.models, empty]
  | @dangling read _ _ load dangling _ =>
    obtain rfl : schema = read := by simpa [hLoad] using load
    simp [dangling]
  | @unselected read _ load resolved _ _ =>
    obtain rfl : schema = read := by simpa [hLoad] using load
    simp [resolved]
  | @emitted read passed load resolved _ _ =>
    obtain rfl : schema = read := by simpa [hLoad] using load
    have hKind := generator.emitModels_failsWith directory options schema
      (options.selectModels schema) passed (.unresolved reference)
    simp only [resolved, reduceCtorEq, iff_false]
    exact fun h => hKind h

/-- A run that succeeds has found where every reference leads. -/
theorem resolved_of_ok (h : SchemaRun generator directory path options workspace run)
    {report : Report} (hOk : run.1 = .ok report) : schema.dangling? = none := by
  rw [Option.eq_none_iff_forall_ne_some]
  intro reference hDangling
  have hFault := (unresolved_iff hLoad h).mpr hDangling
  rw [hOk] at hFault
  cases hFault

/-- A run that is asked for none of the models leaves the file tree as it is. -/
theorem tree_eq_of_unasked (h : SchemaRun generator directory path options workspace run)
    (hNone : options.selectModels schema = []) : run.2.tree = workspace.tree := by
  cases h with
  | unloaded _ kept => exact kept
  | empty _ _ kept => exact kept
  | dangling _ _ kept => exact kept
  | unselected _ _ _ kept => exact kept
  | @emitted read _ load _ selected =>
    obtain rfl : schema = read := by simpa [hLoad] using load
    exact absurd hNone selected

/-- A run of a document with a reference that leads nowhere leaves the file tree as it is. -/
theorem tree_eq_of_dangling (h : SchemaRun generator directory path options workspace run)
    {reference : Reference} (hDangling : schema.dangling? = some reference) :
    run.2.tree = workspace.tree := by
  cases h with
  | unloaded _ kept => exact kept
  | empty _ _ kept => exact kept
  | dangling _ _ kept => exact kept
  | unselected _ _ _ kept => exact kept
  | @emitted read _ load resolved _ _ =>
    obtain rfl : schema = read := by simpa [hLoad] using load
    simp [hDangling] at resolved

end SchemaRun

/-- A document that cannot be loaded, or with a reference that leads to no key of it, ends a schema
run with a fault and leaves the file tree as it is; the fault of a loaded document is `unresolved`
just if there is such a reference, and names the first one. So a run that changes the tree has
loaded a document whose references all lead to its keys. -/
theorem Generator.generateSchema_gate (generator : Generator) (directory path : Path)
    (options : Options) (workspace : Workspace) :
    let run := generator.generateSchema directory path options workspace
    ((¬∃ value schema, SchemaAt workspace.tree path value schema) →
      (∃ fault, run.1 = .error fault) ∧ run.2.tree = workspace.tree) ∧
    (∀ value schema, SchemaAt workspace.tree path value schema →
      (∀ reference, run.1 = .error (.unresolved reference) ↔
        schema.FirstDangling value reference) ∧
      (¬schema.Resolves value →
        (∃ reference, run.1 = .error (.unresolved reference)) ∧
          run.2.tree = workspace.tree)) ∧
    (run.2.tree ≠ workspace.tree →
      ∃ value schema, SchemaAt workspace.tree path value schema ∧ schema.Resolves value) := by
  intro run
  have hRun : SchemaRun generator directory path options workspace run :=
    generator.schemaRun directory path options workspace
  have hUnloaded : (¬∃ value schema, SchemaAt workspace.tree path value schema) →
      (∃ fault, run.1 = .error fault) ∧ run.2.tree = workspace.tree := by
    intro hNone
    refine hRun.of_unloaded fun schema hLoad => hNone ?_
    obtain ⟨value, hAt⟩ := loadSchema_ok_iff.mp hLoad
    exact ⟨value, schema, hAt⟩
  have hGate : ∀ value schema, SchemaAt workspace.tree path value schema →
      ¬schema.Resolves value →
        (∃ reference, run.1 = .error (.unresolved reference)) ∧
          run.2.tree = workspace.tree := by
    intro value schema hAt hResolves
    have hLoad := loadSchema_ok_iff.mpr ⟨value, hAt⟩
    obtain ⟨reference, hDangling⟩ : ∃ reference, schema.dangling? = some reference :=
      Option.ne_none_iff_exists'.mp fun h =>
        hResolves ((Schema.dangling?_eq_none_iff hAt.2).mp h)
    exact ⟨⟨reference, (hRun.unresolved_iff hLoad).mpr hDangling⟩,
      hRun.tree_eq_of_dangling hLoad hDangling⟩
  refine ⟨hUnloaded, fun value schema hAt => ⟨fun reference => ?_, hGate value schema hAt⟩, ?_⟩
  · rw [hRun.unresolved_iff (loadSchema_ok_iff.mpr ⟨value, hAt⟩),
      Schema.dangling?_eq_some_iff hAt.2]
  · intro hChanged
    by_contra hNone
    by_cases hAt : ∃ value schema, SchemaAt workspace.tree path value schema
    · obtain ⟨value, schema, hAt⟩ := hAt
      exact hChanged (hGate value schema hAt fun h => hNone ⟨value, schema, hAt, h⟩).2
    · exact hChanged (hUnloaded hAt).2

end EntityGen
