import EntityGen.Form.Reader
import EntityGen.Proofs.Shape

/-! The models of a forms document that was read, and the actions of each. They have different
names, and the names of the models can name directories. -/

namespace EntityGen.Forms

open Yaml (Value)

/-- Forms are read from null, or as a table of tables from a mapping whose keys are model names. -/
theorem ofValue_eq_ok {value : Value} {forms : Forms} :
    ofValue value = .ok forms ↔
      (value = .null ∧ forms.models = []) ∨
        ∃ entries, value = .map entries ∧
          Shape.table (Shape.table (Shape.table Form.readRule)) (.map entries) = .ok forms.models ∧
          ∀ model ∈ forms.models, isModelName model.1 = true := by
  obtain ⟨models⟩ := forms
  rcases value with _ | _ | _ | _ | _ | _ | entries | _ <;>
    simp only [ofValue, reduceCtorEq, false_and, exists_false, or_self, true_and, or_false,
      false_or, Value.map.injEq, exists_eq_left', Except.ok.injEq, Forms.mk.injEq]
  · exact eq_comm
  · split
    · rename_i hTable
      simp [hTable]
    · rename_i read hTable
      split
      · rename_i name rules hFind
        have hName := List.find?_some hFind
        have hMem := List.mem_of_find?_eq_some hFind
        simp only [reduceCtorEq, false_iff, hTable, Except.ok.injEq, not_and]
        rintro rfl hNames
        simp [hNames _ hMem] at hName
      · rename_i hNone
        have hNames : ∀ model ∈ read, isModelName model.1 = true := by
          simpa using List.find?_eq_none.mp hNone
        simp only [Except.ok.injEq, Forms.mk.injEq, hTable]
        exact ⟨fun hSame => hSame ▸ ⟨rfl, hNames⟩, And.left⟩

variable {value : Value} {forms : Forms} (h : ofValue value = .ok forms)
include h

theorem ofValue_nodup : (forms.models.map (·.1)).Nodup := by
  rcases ofValue_eq_ok.mp h with ⟨-, hEmpty⟩ | ⟨entries, -, hTable, -⟩
  · simp [hEmpty]
  · exact Shape.table_nodup hTable

theorem isModelName_of_mem_models : ∀ model ∈ forms.models, isModelName model.1 = true := by
  rcases ofValue_eq_ok.mp h with ⟨-, hEmpty⟩ | ⟨entries, -, -, hNames⟩
  · simp [hEmpty]
  · exact hNames

/-- The actions of a model have different names. -/
theorem actions_nodup {name : String} {model : FormModel} (hModel : (name, model) ∈ forms.models) :
    (model.map (·.1)).Nodup := by
  rcases ofValue_eq_ok.mp h with ⟨-, hEmpty⟩ | ⟨entries, -, hTable, -⟩
  · simp [hEmpty] at hModel
  · obtain ⟨_, _, -, -, hActions⟩ := Shape.exists_read_of_mem_table hTable hModel
    exact Shape.table_nodup hActions

end EntityGen.Forms
