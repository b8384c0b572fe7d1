import EntityGen.Editor.Schema
import EntityGen.Proofs.Editor.Value
import EntityGen.Proofs.Schema.Order

/-! The models that an editor was given, given back with their type. Each is read as the model that it
was, with every attribute of its fields and relationships; what was left out is read as its default. -/

namespace EntityGen

open Yaml (Value)

namespace Editor

/-- A model as it is given back: as it was given, with its type. -/
def withKind : Json → Json
  | .obj entries => .obj (("type", .str Schema.modelKind) :: entries)
  | other => other

/-- The models of a project as they are given back. -/
def returned (models : List (String × Model)) : Json :=
  .obj (models.map fun (name, model) => (name, withKind (modelJson model)))

/-! ### Reading -/

theorem readField_fieldJson (field : Field) :
    Schema.readField (fieldJson field).toValue = .ok field := by
  obtain ⟨type, map, required⟩ := field
  cases map <;> cases required <;> rfl

theorem readRelationship_relationshipJson (relationship : Relationship) :
    Schema.readRelationship (relationshipJson relationship).toValue = .ok relationship := rfl

/-- An object is read as the table of which it was made. -/
theorem table_obj {α : Type} {read : Value → Shape.Result α} {json : α → Json}
    (hRead : ∀ x, read (json x).toValue = .ok x) {rows : List (String × α)}
    (hNodup : (rows.map (·.1)).Nodup) :
    Shape.table read (Json.obj (rows.map fun (name, x) => (name, json x))).toValue = .ok rows := by
  rw [Json.toValue, Json.entriesToValues_eq_map, List.map_map]
  refine Shape.table_of_rows ?_ hNodup
  rw [List.forall₂_map_left_iff, List.forall₂_same]
  exact fun row _ => ⟨rfl, hRead row.2⟩

/-- Tables under the names of a model's parts are read as that model. -/
theorem readModel_tables {mappings relationships : Value} {model : Model}
    (hMappings : Shape.table Schema.readField mappings = .ok model.mappings)
    (hRelationships : Shape.table Schema.readRelationship relationships = .ok model.relationships) :
    Schema.readModel [(.str "relationships", relationships), (.str "mappings", mappings)] =
      .ok model := by
  simp [Schema.readModel, Shape.record, Shape.readEntry, Shape.fieldName, Shape.textAs,
    Value.untagged, Schema.modelStep, hMappings, hRelationships, Except.map, bind, Except.bind,
    pure, Except.pure]

theorem readEntry_withKind {name : String} {model : Model} (hChecked : model.Checked)
    (hFault : model.fault? = none) :
    Schema.readEntry name (withKind (modelJson model)).toValue = .ok (.model model) := by
  have hMappings := table_obj readField_fieldJson hChecked.fields
  have hRelationships := table_obj readRelationship_relationshipJson hChecked.relations
  -- Taking the type out moves the last entry into its place.
  exact Schema.readEntry_eq_model_iff.mpr
    ⟨_, rfl, rfl, readModel_tables hMappings hRelationships, hFault⟩

/-! ### Keys -/

theorem uniqueTexts_table {α : Type} (json : α → Json) {rows : List (String × α)}
    (hNodup : (rows.map (·.1)).Nodup)
    (hValues : ∀ row ∈ rows, (json row.2).toValue.UniqueTexts) :
    (Json.obj (rows.map fun (name, x) => (name, json x))).toValue.UniqueTexts := by
  refine Json.uniqueTexts_obj (by simpa [Function.comp_def] using hNodup) fun entry hEntry => ?_
  obtain ⟨row, hRow, rfl⟩ := List.mem_map.mp hEntry
  exact hValues row hRow

theorem uniqueTexts_fieldJson (field : Field) : (fieldJson field).toValue.UniqueTexts := by
  obtain ⟨type, map, required⟩ := field
  refine Json.uniqueTexts_obj ?_ ?_
  · cases map <;> cases required <;> simp
  · cases map <;> cases required <;>
      simp [Json.toValue, Value.UniqueTexts, Value.Everywhere.bool]

theorem uniqueTexts_relationshipJson (relationship : Relationship) :
    (relationshipJson relationship).toValue.UniqueTexts :=
  Json.uniqueTexts_obj (by simp) (by simp [Json.toValue, Value.UniqueTexts])

theorem uniqueTexts_withKind {model : Model} (hChecked : model.Checked) :
    (withKind (modelJson model)).toValue.UniqueTexts := by
  have hMappings := uniqueTexts_table fieldJson hChecked.fields
    fun row _ => uniqueTexts_fieldJson row.2
  have hRelationships := uniqueTexts_table relationshipJson hChecked.relations
    fun row _ => uniqueTexts_relationshipJson row.2
  refine Json.uniqueTexts_obj (by simp) fun entry hEntry => ?_
  simp only [List.mem_cons, List.not_mem_nil, or_false] at hEntry
  rcases hEntry with rfl | rfl | rfl
  · exact .str _
  · exact hMappings
  · exact hRelationships

/-! ### Models -/

/-- What reading a schema assures of its models. -/
structure WereRead (models : List (String × Model)) : Prop where
  names : (models.map (·.1)).Nodup
  named : ∀ row ∈ models, isModelName row.1 = true
  checked : ∀ row ∈ models, row.2.Checked
  faultless : ∀ row ∈ models, row.2.fault? = none

theorem wereRead_of_ofValue {value : Value} {schema : Schema} (hDistinct : value.Distinct)
    (h : Schema.ofValue value = .ok schema) : WereRead schema.models where
  names := (Schema.ofValue_nodup hDistinct h).sublist schema.models_sublist
  named := fun _ hRow => Schema.isModelName_of_mem_models h hRow
  checked := fun _ hRow => Schema.checked_of_mem_models h hRow
  faultless := fun row hRow => by
    obtain ⟨written, hRead⟩ := Schema.exists_readEntry_of_mem_models h hRow
    obtain ⟨-, -, -, -, hFault⟩ := Schema.readEntry_eq_model_iff.mp hRead
    exact hFault

namespace WereRead

variable {models : List (String × Model)} (h : WereRead models)
include h

/-- Models that are given back are read as they were. -/
theorem ofValue_returned : Schema.ofValue (returned models).toValue =
    .ok ⟨models.map fun (name, model) => (name, .model model)⟩ := by
  refine Schema.ofValue_eq_ok.mpr (.inr ⟨_, rfl, ?_⟩)
  rw [Json.entriesToValues_eq_map, List.map_map, List.forall₂_map_left_iff,
    List.forall₂_map_right_iff, List.forall₂_same]
  intro row hRow
  exact ⟨rfl, h.named row hRow, readEntry_withKind (h.checked row hRow) (h.faultless row hRow)⟩

theorem uniqueTexts_returned : (returned models).toValue.UniqueTexts :=
  uniqueTexts_table (fun model => withKind (modelJson model)) h.names
    fun row hRow => uniqueTexts_withKind (h.checked row hRow)

/-- Models that are given back with their keys in any order are read as the same models: each has the
fields and the relationships that it had. -/
theorem ofValue_of_same {given : Value} (hSame : (returned models).toValue.same given = true)
    (hUnique : given.UniqueTexts) :
    ∃ schema, Schema.ofValue given = .ok schema ∧
      Shuffled Model.Rearranged models schema.models := by
  have hModels : (Schema.mk (models.map fun (name, model) => (name, Entry.model model))).models =
      models := by
    simp [Schema.models, List.filterMap_map]
  have hOnly : (Schema.mk (models.map fun (name, model) => (name, Entry.model model))).OnlyModels := by
    intro row hRow
    obtain ⟨⟨name, model⟩, -, rfl⟩ := List.mem_map.mp hRow
    exact ⟨model, rfl⟩
  obtain ⟨schema, hSchema, hShuffled⟩ := Schema.ofValue_carries
    ⟨hSame, h.uniqueTexts_returned, hUnique⟩ h.ofValue_returned hOnly
  exact ⟨schema, hSchema, hModels ▸ hShuffled⟩

end WereRead

end Editor

end EntityGen
