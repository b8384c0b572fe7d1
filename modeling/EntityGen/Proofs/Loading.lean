import EntityGen.Document
import EntityGen.Proofs.Job

/-! Loading documents. A schema is read at a path when the file there is text that parses and has
the shape of a schema; loading gives exactly the schemas that are read and leaves the file tree as
it is. The names of the entries of a schema are the keys of its document, in order. -/

namespace EntityGen

open Files (FileTree Path)
open Yaml (Value)

/-- The file at `path` is the text of a document with the tree `value`. -/
def DocumentAt (tree : FileTree) (path : Path) (value : Value) : Prop :=
  ∃ text, tree.readText path = .ok text ∧ Yaml.parse? text = some value

/-- The document at `path` has the tree `value` and the schema `schema`. -/
def SchemaAt (tree : FileTree) (path : Path) (value : Value) (schema : Schema) : Prop :=
  DocumentAt tree path value ∧ Schema.ofValue value = .ok schema

/-- The document at `path` has the tree `value` and the forms `forms`. -/
def FormsAt (tree : FileTree) (path : Path) (value : Value) (forms : Forms) : Prop :=
  DocumentAt tree path value ∧ Forms.ofValue value = .ok forms

/-- `name` is a key of the mapping that a document consists of. -/
def IsTopLevelKey (value : Value) (name : String) : Prop :=
  ∃ entries content, value = .map entries ∧ (.str name, content) ∈ entries

theorem loadDocument_tree (path : Path) (workspace : Workspace) :
    (loadDocument path workspace).2 = workspace := by
  simp only [loadDocument, Job.bind_run, Job.tree_run, parseDocument]
  rcases workspace.tree.readText path with cause | text
  · rfl
  · simp only
    rcases Yaml.parse? text with _ | value <;> rfl

theorem loadDocument_ok_iff {path : Path} {workspace : Workspace} {value : Value} :
    (loadDocument path workspace).1 = .ok value ↔ DocumentAt workspace.tree path value := by
  simp only [loadDocument, Job.bind_run, Job.tree_run, DocumentAt, parseDocument]
  rcases workspace.tree.readText path with cause | text
  · simp
  · simp only [Except.ok.injEq, exists_eq_left']
    rcases Yaml.parse? text with _ | parsed <;> simp [loadDocument.liftExcept]

theorem Schema.load_tree (path : Path) (value : Value) (workspace : Workspace) :
    (Schema.load path value workspace).2.tree = workspace.tree := by
  simp only [Schema.load, Job.bind_run, Job.tellAll_run]
  rcases ofValue value with cause | schema <;> rfl

theorem Schema.load_ok_iff (path : Path) (value : Value) (workspace : Workspace)
    (schema : Schema) :
    (Schema.load path value workspace).1 = .ok schema ↔ Schema.ofValue value = .ok schema := by
  simp only [Schema.load, Job.bind_run, Job.tellAll_run]
  rcases ofValue value with cause | read <;> simp

theorem Forms.load_tree (path : Path) (value : Value) (workspace : Workspace) :
    (Forms.load path value workspace).2.tree = workspace.tree := by
  simp only [Forms.load]
  rcases ofValue value with cause | forms <;> rfl

theorem Forms.load_ok_iff (path : Path) (value : Value) (workspace : Workspace)
    (forms : Forms) :
    (Forms.load path value workspace).1 = .ok forms ↔ Forms.ofValue value = .ok forms := by
  simp only [Forms.load]
  rcases ofValue value with cause | read <;> simp

section

variable {α : Type} {load : Path → Value → Job α} {read : Value → Except Malformation α}

/-- A document is loaded by reading its tree, and then its shape. -/
theorem loadDocument_bind_tree
    (hTree : ∀ path value workspace, (load path value workspace).2.tree = workspace.tree)
    (path : Path) (workspace : Workspace) :
    ((loadDocument path >>= load path) workspace).2.tree = workspace.tree := by
  have h := loadDocument_tree path workspace
  rw [Job.bind_run]
  rcases hRun : loadDocument path workspace with ⟨fault | value, after⟩
  · rw [hRun] at h
    simp [← h]
  · rw [hRun] at h
    simp only [hTree, ← h]

theorem loadDocument_bind_ok_iff
    (hLoad : ∀ path value workspace a,
      (load path value workspace).1 = .ok a ↔ read value = .ok a)
    (path : Path) (workspace : Workspace) (a : α) :
    ((loadDocument path >>= load path) workspace).1 = .ok a ↔
      ∃ value, DocumentAt workspace.tree path value ∧ read value = .ok a := by
  simp only [Job.bind_run, ← loadDocument_ok_iff]
  rcases loadDocument path workspace with ⟨fault | value, after⟩
  · simp
  · simp [hLoad]

end

theorem loadSchema_tree (path : Path) (workspace : Workspace) :
    (loadSchema path workspace).2.tree = workspace.tree :=
  loadDocument_bind_tree Schema.load_tree path workspace

/-- Loading gives the schemas that are read at a path, and no others. -/
theorem loadSchema_ok_iff {path : Path} {workspace : Workspace} {schema : Schema} :
    (loadSchema path workspace).1 = .ok schema ↔
      ∃ value, SchemaAt workspace.tree path value schema :=
  loadDocument_bind_ok_iff Schema.load_ok_iff path workspace schema

theorem loadForms_tree (path : Path) (workspace : Workspace) :
    (loadForms path workspace).2.tree = workspace.tree :=
  loadDocument_bind_tree Forms.load_tree path workspace

/-- Loading gives the forms that are read at a path, and no others. -/
theorem loadForms_ok_iff {path : Path} {workspace : Workspace} {forms : Forms} :
    (loadForms path workspace).1 = .ok forms ↔
      ∃ value, FormsAt workspace.tree path value forms :=
  loadDocument_bind_ok_iff Forms.load_ok_iff path workspace forms

end EntityGen
