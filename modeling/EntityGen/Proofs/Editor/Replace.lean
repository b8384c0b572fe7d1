import EntityGen.Editor.Service
import EntityGen.Proofs.Editor.Returned
import EntityGen.Proofs.Files.Rewriting
import EntityGen.Proofs.Generation.Filling
import EntityGen.Proofs.Generation.Gate

/-! Replacing a schema and reading it agree. A value that has not the shape of a schema changes no
file; after every other replacement the file is the header with the document below it, and what is
read of it is what the value says. Models that are given back as they were read are taken, and they
are read again as the same models. -/

namespace EntityGen

open Files (FileTree)
open Yaml (Value)

namespace Job

variable {path : Files.Path} {workspace after : Workspace}

theorem writeFile_failsWith (path : Files.Path) (text : String) :
    FailsWith Fault.IsOfFiles (writeFile path text) := by
  rw [writeFile]
  have hTree : FailsWith Fault.IsOfFiles tree := fun workspace fault hFault => by
    rw [tree_run] at hFault
    cases hFault
  have hWrite : FailsWith Fault.IsOfFiles (do
      replaceTree (.unwritten path) ((← tree).write path text.toUTF8)) :=
    .bind hTree fun _ => replaceTree_failsWith (fun _ => trivial) _
  split
  · exact .bind (createDirAll_failsWith (fun _ => trivial) _) fun _ => hWrite
  · exact hWrite

/-- What was written is what is read. -/
theorem readText_of_writeFile {text : String}
    (h : writeFile path text workspace = (.ok (), after)) :
    after.tree.readText path = .ok text := by
  have hWriting := writeFile_run h
  cases hWriting with
  | settled _ leads holds =>
    exact FileTree.readText_of_read (FileTree.read_eq_ok_iff.mpr ⟨_, leads, holds⟩)

/-- A file that can be read is written without a fault. -/
theorem writeFile_of_read (h : workspace.tree.Grounded) {content : ByteArray}
    (hRead : workspace.tree.read path = .ok content) (text : String) :
    ∃ after, writeFile path text workspace = (.ok (), after) := by
  obtain ⟨tree, hWritten⟩ := h.write_of_read hRead text.toUTF8
  obtain ⟨place, hPlace, hNode⟩ := FileTree.read_eq_ok_iff.mp hRead
  refine ⟨{ workspace with tree }, ?_⟩
  rcases hAround : path.parent? with _ | around
  · rw [writeFile, hAround]
    simp only [bind_run, tree_run, replaceTree_run_ok hWritten]
  · have hCreate : workspace.tree.createDirAll around = (workspace.tree, none) := by
      by_cases hEmpty : around = ""
      · subst hEmpty
        rfl
      · obtain ⟨directory, hLeads⟩ := h.leads_around hPlace hAround hEmpty
        exact hLeads.createDirAll_eq_self
    rw [writeFile_eq hAround]
    simp only [bind_run, createDirAll_run, hCreate, tree_run, replaceTree_run_ok hWritten]

end Job

namespace Editor

variable {project : Project} {workspace after : Workspace} {submitted : Json} {schema : Schema}

/-! ### Models of a document -/

/-- An entry of a document is a model by its type. -/
def isModelEntry (entry : Value × Value) : Bool :=
  match entry.2 with
  | .map entries => Schema.kind? entries == some Schema.modelKind
  | _ => false

/-- A model is listed as it is read from an entry of the document, under its name. -/
def Lists (entry : Value × Value) (row : String × Model) : Prop :=
  entry.1 = .str row.1 ∧ Schema.readEntry row.1 entry.2 = .ok (.model row.2)

theorem isModelEntry_iff {name : String} {key value : Value} {entry : Entry}
    (h : Schema.readEntry name value = .ok entry) :
    isModelEntry (key, value) = true ↔ ∃ model, entry = .model model := by
  constructor
  · intro hModel
    rw [isModelEntry.eq_def] at hModel
    split at hModel
    · rename_i hMap
      obtain rfl : value = _ := hMap
      rw [beq_iff_eq] at hModel
      simp only [Schema.readEntry, hModel, bne_self_eq_false, Bool.false_eq_true, if_false] at h
      split at h
      · cases h
      · split at h
        · cases h
        · exact ⟨_, (Except.ok.inj h).symm⟩
    · cases hModel
  · rintro ⟨model, rfl⟩
    obtain ⟨entries, rfl, hKind, -, -⟩ := Schema.readEntry_eq_model_iff.mp h
    simp [isModelEntry, hKind]

/-- The models of a schema are the entries of its document that are models, in order. -/
theorem models_listed {written : List (Value × Value)} {entries : List (String × Entry)}
    (h : List.Forall₂ Schema.ReadsAs written entries) :
    List.Forall₂ Lists (written.filter isModelEntry) (Schema.mk entries).models := by
  induction h with
  | nil => exact .nil
  | @cons first row written entries hFirst _ ih =>
    obtain ⟨key, value⟩ := first
    obtain ⟨name, entry⟩ := row
    obtain ⟨hKey, -, hRead⟩ := hFirst
    have hModel : isModelEntry (key, value) = true ↔ ∃ model, entry = .model model :=
      isModelEntry_iff hRead
    cases entry with
    | model model =>
      rw [List.filter_cons_of_pos (hModel.mpr ⟨model, rfl⟩)]
      exact .cons ⟨hKey, hRead⟩ ih
    | other kind =>
      rw [List.filter_cons_of_neg (by simp [hModel])]
      exact ih

theorem models_listed_of_ofValue {value : Value} (h : Schema.ofValue value = .ok schema) :
    List.Forall₂ Lists (value.entries.filter isModelEntry) schema.models := by
  rcases Schema.ofValue_eq_ok.mp h with ⟨rfl, hEmpty⟩ | ⟨written, rfl, hRead⟩
  · rw [Schema.models, hEmpty]
    exact .nil
  · exact models_listed hRead

/-! ### Reading -/

/-- A value is read back from the document that is written of it. -/
def ReadsBack (value : Value) : Prop :=
  ∀ text, Yaml.write? value = some text → Yaml.parse? (underHeader .schema text) = some value

/-- A schema that loads is what is read. -/
theorem read_of_loadSchema (h : (loadSchema project.schemaPath workspace).1 = .ok schema) :
    (read project workspace).1 = .ok ⟨project, some schema.models⟩ := by
  rw [read, Job.bind_run, Job.outcome_run, h]
  rfl

/-! ### Replacing -/

/-- A replacement that is malformed ends before anything is written; every other one writes the
document under the header. -/
theorem replace_cases {result : Except Fault Unit}
    (h : replace project submitted workspace = (result, after)) :
    (∃ cause, Schema.ofValue submitted.toValue = .error cause ∧
      result = .error (.malformed project.schemaPath cause) ∧ after.tree = workspace.tree) ∨
    ∃ schema text mid, Schema.ofValue submitted.toValue = .ok schema ∧
      Yaml.write? submitted.toValue = some text ∧ mid.tree = workspace.tree ∧
      (Job.writeFile project.schemaPath (underHeader .schema text) >>= fun _ =>
        Job.tell (.schemaSaved project.schemaPath)) mid = (result, after) := by
  rw [replace] at h
  rcases hShape : Schema.ofValue submitted.toValue with cause | schema
  · have hLoad : Schema.load project.schemaPath submitted.toValue workspace =
        (.error (.malformed project.schemaPath cause), { workspace with
          notices := workspace.notices ++ Schema.noticesOfValue submitted.toValue }) := by
      simp only [Schema.load, Job.bind_run, Job.tellAll_run, hShape, Job.throw_run]
    rw [Job.bind_run_error hLoad] at h
    obtain ⟨rfl, rfl⟩ := Prod.mk.inj h
    exact .inl ⟨cause, rfl, rfl, rfl⟩
  · have hLoad : Schema.load project.schemaPath submitted.toValue workspace =
        (.ok schema, { workspace with
          notices := workspace.notices ++ Schema.noticesOfValue submitted.toValue }) := by
      simp only [Schema.load, Job.bind_run, Job.tellAll_run, hShape, Job.pure_run]
    obtain ⟨text, hText⟩ := submitted.exists_write?
    rw [Job.bind_run_ok hLoad, renderDocument, hText] at h
    exact .inr ⟨schema, text, { workspace with
      notices := workspace.notices ++ Schema.noticesOfValue submitted.toValue }, rfl, hText, rfl, h⟩

/-- A replacement that fails as malformed changes no file. -/
theorem replace_malformed {path : Files.Path} {cause : Malformation}
    (h : replace project submitted workspace = (.error (.malformed path cause), after)) :
    after.tree = workspace.tree := by
  rcases replace_cases h with ⟨_, -, -, hTree⟩ | ⟨schema, text, mid, -, -, -, hWrite⟩
  · exact hTree
  · -- what is written fails for other reasons only
    rcases Job.bind_cases hWrite with ⟨fault, hFile, hFault⟩ | ⟨_, last, -, hTell⟩
    · obtain rfl : Fault.malformed path cause = fault := Except.error.inj hFault
      have hKind : (Fault.malformed path cause).IsOfFiles :=
        Job.writeFile_failsWith _ _ mid _ (by rw [hFile])
      exact hKind.elim
    · rw [Job.tell_run] at hTell
      cases hTell

/-- After a replacement without a fault the file is the document under the header. -/
theorem replace_ok (h : replace project submitted workspace = (.ok (), after)) :
    ∃ schema text, Schema.ofValue submitted.toValue = .ok schema ∧
      Yaml.write? submitted.toValue = some text ∧
      after.tree.readText project.schemaPath = .ok (underHeader .schema text) := by
  rcases replace_cases h with ⟨cause, -, hFault, -⟩ | ⟨schema, text, mid, hShape, hText, -, hWrite⟩
  · cases hFault
  · rcases Job.bind_cases hWrite with ⟨fault, -, hFault⟩ | ⟨_, last, hFile, hTell⟩
    · cases hFault
    · rw [Job.tell_run] at hTell
      have hFile := Job.readText_of_writeFile hFile
      obtain ⟨-, rfl⟩ := Prod.mk.inj hTell
      exact ⟨schema, text, hShape, hText, hFile⟩

/-- What has the shape of a schema replaces every file that can be read. -/
theorem replace_of_read (hGrounded : workspace.tree.Grounded) {content : ByteArray}
    (hRead : workspace.tree.read project.schemaPath = .ok content)
    (hShape : Schema.ofValue submitted.toValue = .ok schema) :
    ∃ after, replace project submitted workspace = (.ok (), after) := by
  rcases hRun : replace project submitted workspace with ⟨result, after⟩
  rcases replace_cases hRun with ⟨cause, hFault, -⟩ | ⟨_, text, mid, -, -, hTree, hWrite⟩
  · rw [hShape] at hFault
    cases hFault
  · rw [← hTree] at hGrounded hRead
    obtain ⟨last, hLast⟩ := Job.writeFile_of_read hGrounded hRead (underHeader .schema text)
    rw [Job.bind_run_ok hLast, Job.tell_run] at hWrite
    obtain ⟨rfl, rfl⟩ := Prod.mk.inj hWrite
    exact ⟨_, rfl⟩

/-- What was written of a value that reads back is loaded as the value says. -/
theorem loadSchema_of_replace (h : replace project submitted workspace = (.ok (), after))
    (hBack : ReadsBack submitted.toValue) (hShape : Schema.ofValue submitted.toValue = .ok schema) :
    (loadSchema project.schemaPath after).1 = .ok schema := by
  obtain ⟨_, text, -, hText, hFile⟩ := replace_ok h
  exact loadSchema_ok_iff.mpr ⟨submitted.toValue, ⟨_, hFile, hBack text hText⟩, hShape⟩

/-! ### Answering -/

theorem rejection_eq_badRequest_iff {fault : Fault} :
    (rejection fault).1 = 400 ↔ ∃ path cause, fault = .malformed path cause := by
  cases fault <;> simp [rejection]

/-- A replacement is answered in any case, and as a bad request just if it fails as malformed. -/
theorem replaceResponse_run (project : Project) (submitted : Json) (workspace : Workspace) :
    ∃ response, (replaceResponse project submitted workspace).1 = .ok response ∧
      (response.status = 400 ↔ ∃ path cause,
        (replace project submitted workspace).1 = .error (.malformed path cause)) ∧
      (replaceResponse project submitted workspace).2.tree =
        (replace project submitted workspace).2.tree := by
  rw [replaceResponse, Job.bind_run, Job.outcome_run]
  rcases replace project submitted workspace with ⟨fault | _, after⟩
  · refine ⟨_, rfl, rejection_eq_badRequest_iff.trans ?_, rfl⟩
    simp only [Except.error.injEq]
  · exact ⟨_, rfl, by simp, rfl⟩

end Editor

end EntityGen
