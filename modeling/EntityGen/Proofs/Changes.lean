import EntityGen.Proofs.Schema.References
import EntityGen.Proofs.TypeScript.Model
import EntityGen.Proofs.TypeScript.Ruleset

/-! Entries that are not reported as changed. They have the same values as before, but perhaps in
another order, and the order shows in the generated files. -/

namespace EntityGen

open Yaml (Value)
open Yaml.Value (Alike IsUnder)
open TypeScript
open Form (Ruleset)

variable {previous current : Value} {name : String}

/-- An entry that is not reported as changed is alike in both states. -/
theorem alike_of_kept (hPrevious : previous.UniqueTexts) (hCurrent : current.UniqueTexts)
    (hKept : name ∉ changedKeys (some previous) current) {a b : Value}
    (ha : IsUnder previous.entries name a) (hb : IsUnder current.entries name b) : Alike a b := by
  refine ⟨?_, hPrevious.isUnder ha, hCurrent.isUnder hb⟩
  obtain ⟨key, hEntry, hText⟩ := hb
  have hSame : isKept previous.entries (key, b) = true := by
    by_contra hChanged
    refine hKept (List.mem_eraseDups.mpr (List.mem_filterMap.mpr ⟨(key, b), ?_, hText⟩))
    exact List.mem_filter.mpr ⟨hEntry, by simpa using hChanged⟩
  rw [isKept] at hSame
  split at hSame
  · rename_i hFound
    obtain ⟨⟨other, value⟩, hFind, rfl⟩ := Option.map_eq_some_iff.mp hFound
    have hKeys := List.find?_some hFind
    have hOther : IsUnder previous.entries name value := by
      exact ⟨other, List.mem_of_find?_eq_some hFind,
        (Yaml.Value.text?_eq_iff_of_same hKeys).mpr hText⟩
    rwa [ha.unique hPrevious.entries hOther]
  · cases hSame

/-- The models of a schema are read under their names. -/
theorem Schema.isUnder_of_mem_models {value : Value} {schema : Schema}
    (h : ofValue value = .ok schema) {model : Model} (hModel : (name, model) ∈ schema.models) :
    ∃ entry, IsUnder value.entries name entry ∧ readEntry name entry = .ok (.model model) := by
  have hEntry := mem_models.mp hModel
  rcases ofValue_eq_ok.mp h with ⟨-, hEmpty⟩ | ⟨written, rfl, hRead⟩
  · simp [hEmpty] at hEntry
  · obtain ⟨⟨key, value⟩, hWritten, hKey, -, hReads⟩ := Result.exists_left hRead hEntry
    obtain rfl : key = .str name := hKey
    exact ⟨value, ⟨_, hWritten, rfl⟩, hReads⟩

/-- The models of a forms document are read under their names. -/
theorem Forms.isUnder_of_mem_models {value : Value} (hUnique : value.UniqueTexts) {forms : Forms}
    (h : ofValue value = .ok forms) {model : FormModel} (hModel : (name, model) ∈ forms.models) :
    ∃ entry, IsUnder value.entries name entry ∧
      Shape.table (Shape.table Form.readRule) entry = .ok model := by
  rw [ofValue.eq_def] at h
  split at h
  · obtain rfl := Except.ok.inj h
    cases hModel
  · split at h
    · cases h
    · rename_i models hTable
      split at h
      · cases h
      · obtain rfl : ⟨models⟩ = forms := Except.ok.inj h
        exact Shape.IsRow.under (Shape.table_rows hUnique hTable) hModel
  · cases h

/-- An entry that is not reported as changed has the same files as before if and only if the order
is as before: that of the fields and relationships of a model, and that of the actions and fields of
forms and of the properties in their rules. Two actions of one type name could change places
unseen. -/
theorem kept_texts_iff (hPrevious : previous.UniqueTexts) (hCurrent : current.UniqueTexts)
    (hKept : name ∉ changedKeys (some previous) current) :
    (∀ before after model other,
      Schema.ofValue previous = .ok before → Schema.ofValue current = .ok after →
      (name, model) ∈ before.models → (name, other) ∈ after.models →
      ((modelText (Entity.ofModel name model) = modelText (Entity.ofModel name other) ∧
          transferText (Transfer.ofModel name model) =
            transferText (Transfer.ofModel name other)) ↔
        model.SameOrder other)) ∧
    (∀ before after model other paths,
      Forms.ofValue previous = .ok before → Forms.ofValue current = .ok after →
      (name, model) ∈ before.models → (name, other) ∈ after.models →
      (FormModel.InOrder model other →
        rulesetText paths (Ruleset.ofModel name model) =
          rulesetText paths (Ruleset.ofModel name other)) ∧
      (FormModel.DistinctTypes model →
        rulesetText paths (Ruleset.ofModel name model) =
          rulesetText paths (Ruleset.ofModel name other) → FormModel.InOrder model other)) := by
  constructor
  · intro before after model other hBefore hAfter hModel hOther
    obtain ⟨a, ha, hReadA⟩ := Schema.isUnder_of_mem_models hBefore hModel
    obtain ⟨b, hb, hReadB⟩ := Schema.isUnder_of_mem_models hAfter hOther
    have hAlike := alike_of_kept hPrevious hCurrent hKept ha hb
    exact texts_eq_iff (Schema.readEntry_agrees hAlike hReadA hReadB) name
  · intro before after model other paths hBefore hAfter hModel hOther
    obtain ⟨a, ha, hReadA⟩ := Forms.isUnder_of_mem_models hPrevious hBefore hModel
    obtain ⟨b, hb, hReadB⟩ := Forms.isUnder_of_mem_models hCurrent hAfter hOther
    have hAlike := alike_of_kept hPrevious hCurrent hKept ha hb
    have hRearranged : FormModel.Rearranged model other :=
      Shape.table_agrees hAlike (fun _ _ _ _ hAction _ _ hx hy =>
        Shape.table_agrees hAction (fun _ _ _ _ hRule _ _ => Form.readRule_agrees hRule) hx hy)
        hReadA hReadB
    exact ⟨fun hOrder => rulesetText_eq hRearranged hOrder paths name,
      fun hTypes => (rulesetText_eq_iff hRearranged hTypes paths name).mp⟩

/-! ### Two fields in another order -/

/-- A table of empty records. -/
def recordTable (names : List String) : Value := .map (names.map fun name => (.str name, .map []))

/-- A schema of one model, with fields of these names. -/
def schemaWith (fields : List String) : Value :=
  .map [(.str "A", .map [(.str "type", .str "model"), (.str "mappings", recordTable fields)])]

/-- Forms of one model with one action, which has fields of these names. -/
def formsWith (fields : List String) : Value :=
  .map [(.str "A", .map [(.str "create", recordTable fields)])]

/-- Two fields that change places are not reported, but the files of their model and those of their
form are other ones. -/
theorem kept_reordered :
    ("A" ∉ changedKeys (some (schemaWith ["id", "name"])) (schemaWith ["name", "id"]) ∧
      ¬(modelText (Entity.ofModel "A" ⟨[("id", {}), ("name", {})], []⟩) =
          modelText (Entity.ofModel "A" ⟨[("name", {}), ("id", {})], []⟩) ∧
        transferText (Transfer.ofModel "A" ⟨[("id", {}), ("name", {})], []⟩) =
          transferText (Transfer.ofModel "A" ⟨[("name", {}), ("id", {})], []⟩))) ∧
    ("A" ∉ changedKeys (some (formsWith ["id", "name"])) (formsWith ["name", "id"]) ∧
      rulesetText {} (Ruleset.ofModel "A" [("create", [("id", {}), ("name", {})])]) ≠
        rulesetText {} (Ruleset.ofModel "A" [("create", [("name", {}), ("id", {})])])) := by
  have hSchema (first second : String) (h : first ≠ second) :
      (schemaWith [first, second]).UniqueTexts := by
    simp [schemaWith, recordTable, Yaml.UniqueTexts, Yaml.Value.text?, Value.untagged, Ne.symm h]
  have hForms (first second : String) (h : first ≠ second) :
      (formsWith [first, second]).UniqueTexts := by
    simp [formsWith, recordTable, Yaml.UniqueTexts, Yaml.Value.text?, Value.untagged, Ne.symm h]
  have hModelKept :
      "A" ∉ changedKeys (some (schemaWith ["id", "name"])) (schemaWith ["name", "id"]) := by
    decide +kernel
  have hFormsKept :
      "A" ∉ changedKeys (some (formsWith ["id", "name"])) (formsWith ["name", "id"]) := by
    decide +kernel
  refine ⟨⟨hModelKept, fun hTexts => ?_⟩, hFormsKept, fun hText => ?_⟩
  · have hOrder := ((kept_texts_iff (hSchema "id" "name" (by decide))
      (hSchema "name" "id" (by decide)) hModelKept).1 _ _ _ _ rfl rfl List.mem_cons_self
      List.mem_cons_self).mp hTexts
    exact absurd hOrder.mappings (by decide)
  · have hOrder := ((kept_texts_iff (hForms "id" "name" (by decide))
      (hForms "name" "id" (by decide)) hFormsKept).2 _ _ _ _ _ rfl rfl List.mem_cons_self
      List.mem_cons_self).2 (by decide +kernel) hText
    exact absurd (hOrder.rules "create" _ _ List.mem_cons_self List.mem_cons_self).names
      (by decide)

end EntityGen
