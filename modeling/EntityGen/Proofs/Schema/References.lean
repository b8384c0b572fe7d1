import EntityGen.Proofs.Schema.Entries

/-! References between the models of a schema: what it means that the references of a schema lead to
keys of its document. -/

namespace EntityGen

open Yaml (Value)

namespace Schema

theorem mem_models {schema : Schema} {name : String} {model : Model} :
    (name, model) ∈ schema.models ↔ (name, Entry.model model) ∈ schema.entries := by
  simp only [models, List.mem_filterMap, Prod.exists]
  constructor
  · rintro ⟨name', entry, hEntry, h⟩
    cases entry with
    | model definition =>
      obtain ⟨rfl, rfl⟩ : name' = name ∧ definition = model := by simpa using h
      exact hEntry
    | other kind => simp at h
  · intro h
    exact ⟨name, .model model, h, rfl⟩

theorem mem_references {schema : Schema} {reference : Reference} :
    reference ∈ schema.references ↔
      ∃ model relationship, (reference.model, Entry.model model) ∈ schema.entries ∧
        (reference.field, relationship) ∈ model.relationships ∧
        relationship.target = reference.target := by
  obtain ⟨name, field, target⟩ := reference
  simp only [references, List.mem_flatMap, List.mem_map, Prod.exists, Reference.mk.injEq,
    mem_models]
  constructor
  · rintro ⟨_, model, hModel, _, relationship, hField, rfl, rfl, rfl⟩
    exact ⟨model, relationship, hModel, hField, rfl⟩
  · rintro ⟨model, relationship, hModel, hField, rfl⟩
    exact ⟨name, model, hModel, field, relationship, hField, rfl, rfl, rfl⟩

/-- Every reference of a schema leads to a key of its document. -/
def Resolves (schema : Schema) (value : Value) : Prop :=
  ∀ reference ∈ schema.references, IsTopLevelKey value reference.target

/-- A reference leads to no key of the document, and all references before it do. -/
def FirstDangling (schema : Schema) (value : Value) (reference : Reference) : Prop :=
  ∃ before after, schema.references = before ++ reference :: after ∧
    ¬IsTopLevelKey value reference.target ∧
    ∀ earlier ∈ before, IsTopLevelKey value earlier.target

/-- If no reference dangles, the relationships of a model lead to entries of the schema. -/
theorem contains_target {schema : Schema} (hResolved : schema.dangling? = none) {name : String}
    {model : Model} (hModel : (name, model) ∈ schema.models) {relationship : String × Relationship}
    (hRelationship : relationship ∈ model.relationships) :
    schema.contains relationship.2.target = true := by
  rw [dangling?, List.find?_eq_none] at hResolved
  simpa using hResolved ⟨name, relationship.1, relationship.2.target⟩
    (mem_references.mpr ⟨model, relationship.2, mem_models.mp hModel, hRelationship, rfl⟩)

section

variable {value : Value} {schema : Schema} (h : ofValue value = .ok schema)
include h

theorem isModelName_target (hResolved : schema.dangling? = none) {name : String} {model : Model}
    (hModel : (name, model) ∈ schema.models) {relationship : String × Relationship}
    (hRelationship : relationship ∈ model.relationships) :
    isModelName relationship.2.target = true :=
  isModelName_of_contains h (contains_target hResolved hModel hRelationship)

theorem dangling?_eq_some_iff {reference : Reference} :
    schema.dangling? = some reference ↔ schema.FirstDangling value reference := by
  simp only [dangling?, List.find?_eq_some_iff_append, FirstDangling, ← ofValue_names h,
    Bool.not_eq_true', Bool.not_not]
  constructor
  · rintro ⟨hTarget, before, after, hSplit, hBefore⟩
    exact ⟨before, after, hSplit, by simp [hTarget], hBefore⟩
  · rintro ⟨before, after, hSplit, hTarget, hBefore⟩
    exact ⟨by simpa using hTarget, before, after, hSplit, hBefore⟩

theorem dangling?_eq_none_iff : schema.dangling? = none ↔ schema.Resolves value := by
  simp only [dangling?, List.find?_eq_none, Resolves, ← ofValue_names h, Bool.not_eq_true',
    Bool.not_eq_false]

end

end Schema

end EntityGen
