import EntityGen.Generation.Run
import EntityGen.Proofs.Loading

/-! The ways in which a generation can go. A run ends while the document is loaded, at the gate, or
because nothing is to be generated, and the file tree is then as before; or it gets to the files,
and then the document was loaded, passed the gate, and has a model that is asked for. -/

namespace EntityGen

open Files (Path)
open Yaml (Value)

/-- The models of a schema that are asked for. -/
def Options.selectModels (options : Options) (schema : Schema) : List (String × Model) :=
  schema.models.filter fun model => options.includes model.1

/-- The models of forms that are asked for. -/
def Options.selectForms (options : Options) (forms : Forms) : List (String × FormModel) :=
  forms.models.filter fun model => options.includes model.1

theorem Schema.checkReferences_dangling {schema : Schema} {reference : Reference}
    (h : schema.dangling? = some reference) (workspace : Workspace) :
    ∃ after : Workspace, after.tree = workspace.tree ∧
      schema.checkReferences workspace = (.error (.unresolved reference), after) := by
  refine ⟨{ workspace with notices := workspace.notices ++ [.danglingReference reference] },
    rfl, ?_⟩
  simp only [checkReferences, h, Job.bind_run, Job.tell_run, Job.throw_run]

theorem Schema.checkReferences_resolved {schema : Schema} (h : schema.dangling? = none)
    (workspace : Workspace) :
    ∃ after : Workspace, after.tree = workspace.tree ∧
      schema.checkReferences workspace = (.ok (), after) := by
  refine ⟨{ workspace with
    notices := workspace.notices ++ schema.nonModelReferences.map .referenceToOther }, rfl, ?_⟩
  simp only [checkReferences, h, Job.tellAll_run]

/-- How a schema run from `workspace` can go. -/
inductive SchemaRun (generator : Generator) (directory path : Path) (options : Options)
    (workspace : Workspace) : Except Fault Report × Workspace → Prop
  | unloaded {fault : Fault} {after : Workspace}
      (load : (loadSchema path workspace).1 = .error fault) (kept : after.tree = workspace.tree) :
      SchemaRun generator directory path options workspace (.error fault, after)
  | empty {schema : Schema} {after : Workspace}
      (load : (loadSchema path workspace).1 = .ok schema) (empty : schema.entries = [])
      (kept : after.tree = workspace.tree) :
      SchemaRun generator directory path options workspace (.ok {}, after)
  | dangling {schema : Schema} {reference : Reference} {after : Workspace}
      (load : (loadSchema path workspace).1 = .ok schema)
      (dangling : schema.dangling? = some reference) (kept : after.tree = workspace.tree) :
      SchemaRun generator directory path options workspace (.error (.unresolved reference), after)
  | unselected {schema : Schema} {after : Workspace}
      (load : (loadSchema path workspace).1 = .ok schema) (resolved : schema.dangling? = none)
      (unselected : options.selectModels schema = []) (kept : after.tree = workspace.tree) :
      SchemaRun generator directory path options workspace (.ok {}, after)
  | emitted {schema : Schema} {passed : Workspace}
      (load : (loadSchema path workspace).1 = .ok schema) (resolved : schema.dangling? = none)
      (selected : options.selectModels schema ≠ []) (kept : passed.tree = workspace.tree) :
      SchemaRun generator directory path options workspace
        (generator.emitModels directory options schema (options.selectModels schema) passed)

/-- A schema run goes in one of these ways. -/
theorem Generator.schemaRun (generator : Generator) (directory path : Path) (options : Options)
    (workspace : Workspace) :
    SchemaRun generator directory path options workspace
      (generator.generateSchema directory path options workspace) := by
  have hTree := loadSchema_tree path workspace
  rcases hLoad : loadSchema path workspace with ⟨fault | schema, loaded⟩
  · rw [hLoad] at hTree
    rw [generateSchema, Job.bind_run_error hLoad]
    exact .unloaded (by rw [hLoad]) hTree
  rw [hLoad] at hTree
  have hOk : (loadSchema path workspace).1 = .ok schema := by rw [hLoad]
  rw [generateSchema, Job.bind_run_ok hLoad]
  by_cases hEmpty : schema.isEmpty
  · simp only [hEmpty, if_true, Job.bind_run, Job.tell_run, Job.pure_run]
    exact .empty hOk (by simpa [Schema.isEmpty] using hEmpty) hTree
  rw [if_neg hEmpty]
  rcases hDangling : schema.dangling? with _ | reference
  · obtain ⟨checked, hChecked, hCheck⟩ := schema.checkReferences_resolved hDangling loaded
    rw [Job.bind_run_ok hCheck, Job.bind_run_ok (Job.tellAll_run _ _)]
    by_cases hNone : (schema.models.filter fun model => options.includes model.1).isEmpty
    · simp only [hNone, if_true, Job.bind_run, Job.tell_run, Job.pure_run]
      exact .unselected hOk hDangling (by simpa [Options.selectModels] using hNone)
        (hChecked.trans hTree)
    · rw [if_neg hNone]
      exact .emitted hOk hDangling
        (fun h => hNone (by rw [Options.selectModels] at h; rw [h]; rfl)) (hChecked.trans hTree)
  · obtain ⟨checked, hChecked, hCheck⟩ := schema.checkReferences_dangling hDangling loaded
    rw [Job.bind_run_error hCheck]
    exact .dangling hOk hDangling (hChecked.trans hTree)

/-- How a forms run from `workspace` can go. -/
inductive FormsRun (generator : Generator) (directory path : Path) (options : Options)
    (workspace : Workspace) : Except Fault Report × Workspace → Prop
  | unloaded {fault : Fault} {after : Workspace}
      (load : (loadForms path workspace).1 = .error fault) (kept : after.tree = workspace.tree) :
      FormsRun generator directory path options workspace (.error fault, after)
  | unselected {forms : Forms} {after : Workspace}
      (load : (loadForms path workspace).1 = .ok forms)
      (unselected : options.selectForms forms = []) (kept : after.tree = workspace.tree) :
      FormsRun generator directory path options workspace (.ok {}, after)
  | emitted {forms : Forms} {passed : Workspace}
      (load : (loadForms path workspace).1 = .ok forms)
      (selected : options.selectForms forms ≠ []) (kept : passed.tree = workspace.tree) :
      FormsRun generator directory path options workspace
        (generator.emitRulesets directory options forms (options.selectForms forms) passed)

/-- A forms run goes in one of these ways. -/
theorem Generator.formsRun (generator : Generator) (directory path : Path) (options : Options)
    (workspace : Workspace) :
    FormsRun generator directory path options workspace
      (generator.generateForms directory path options workspace) := by
  have hTree := loadForms_tree path workspace
  rcases hLoad : loadForms path workspace with ⟨fault | forms, loaded⟩
  · rw [hLoad] at hTree
    rw [generateForms, Job.bind_run_error hLoad]
    exact .unloaded (by rw [hLoad]) hTree
  rw [hLoad] at hTree
  have hOk : (loadForms path workspace).1 = .ok forms := by rw [hLoad]
  rw [generateForms, Job.bind_run_ok hLoad]
  by_cases hEmpty : forms.isEmpty
  · have hModels : forms.models = [] := by simpa [Forms.isEmpty] using hEmpty
    simp only [hEmpty, if_true, Job.bind_run, Job.tell_run, Job.pure_run]
    exact .unselected hOk (by simp [Options.selectForms, hModels]) hTree
  rw [if_neg hEmpty, Job.bind_run_ok (Job.tellAll_run _ _)]
  by_cases hNone : (forms.models.filter fun model => options.includes model.1).isEmpty
  · simp only [hNone, if_true, Job.bind_run, Job.tell_run, Job.pure_run]
    exact .unselected hOk (by simpa [Options.selectForms] using hNone) hTree
  · rw [if_neg hNone]
    exact .emitted hOk (fun h => hNone (by rw [Options.selectForms] at h; rw [h]; rfl)) hTree

end EntityGen
