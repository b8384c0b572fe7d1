import EntityGen.Proofs.Schema.Declarations
import EntityGen.Proofs.Shape.Order

/-! Whether a schema of models is accepted does not depend on the order of its keys. The models are
read in every order, none of the checks depends on the order of the declarations, and the models that
are read are the same, with the same fields and relationships. -/

namespace EntityGen

open Yaml (Value)
open Yaml.Value (Alike Corresponds IsUnder)
open Shape (Carries StepCarries StepReads)

/-! ### Checks -/

theorem Shuffled.perm {α : Type} {rows others : List (String × α)} (h : Shuffled Eq rows others) :
    rows.Perm others := by
  obtain ⟨paired, hPerm, hPaired⟩ := h.pairing
  have hSame : rows = paired := by
    rw [← List.forall₂_eq_eq_eq]
    exact hPaired.imp fun _ _ hRow => Prod.ext hRow.1 hRow.2
  rw [hSame]
  exact hPerm

theorem Declaration.Agrees.symm {first second : Declaration} (h : first.Agrees second) :
    second.Agrees first := by
  intro hWire
  obtain ⟨hClaim, hField⟩ := h hWire.symm
  exact ⟨hClaim.symm, hClaim ▸ hField⟩

namespace Model

theorem Rearranged.fault? {model other : Model} (h : model.Rearranged other)
    (hFault : model.fault? = none) : other.fault? = none := by
  obtain ⟨hFields, hRelations, hAgrees⟩ := fault?_eq_none_iff.mp hFault
  have hMappings := h.mappings.perm
  have hRelationships := h.relationships.perm
  have hDeclarations : model.declarations.Perm other.declarations :=
    (hMappings.map _).append (hRelationships.map _)
  refine fault?_eq_none_iff.mpr ⟨fun row hRow => ?_, fun row hRow => ?_, ?_⟩
  · exact hFields row (hMappings.mem_iff.mpr hRow)
  · exact hRelations row (hRelationships.mem_iff.mpr hRow)
  · exact (hDeclarations.pairwise_iff Declaration.Agrees.symm).mp hAgrees

end Model

namespace Schema

/-! ### Readers -/

theorem fieldStep_carries : StepCarries fieldStep := by
  intro name a b h record hRead other
  rcases hRead with hUnknown | ⟨next, hKnown⟩
  · left
    rw [fieldStep.eq_def] at hUnknown ⊢
    split at hUnknown <;> simp_all
  · right
    rcases fieldStep_cases hKnown with ⟨rfl, x, hx, -⟩ | ⟨rfl, x, hx, -⟩ | ⟨rfl, x, hx, -⟩
    · obtain ⟨_, hy, rfl⟩ := Shape.text_carries a b h x hx
      exact ⟨{ other with type := x }, by simp [fieldStep, hy, Except.map]⟩
    · obtain ⟨_, hy, rfl⟩ := Shape.optional_carries Shape.text_carries a b h x hx
      exact ⟨{ other with map := x }, by simp [fieldStep, hy, Except.map]⟩
    · obtain ⟨_, hy, rfl⟩ := Shape.flag_carries a b h x hx
      exact ⟨{ other with required := x }, by simp [fieldStep, hy, Except.map]⟩

theorem relationshipStep_carries : StepCarries relationshipStep := by
  intro name a b h record hRead other
  rcases hRead with hUnknown | ⟨next, hKnown⟩
  · left
    rw [relationshipStep.eq_def] at hUnknown ⊢
    split at hUnknown <;> simp_all
  · right
    rcases relationshipStep_cases hKnown with ⟨rfl, x, hx, -⟩ | ⟨rfl, x, hx, -⟩
    · obtain ⟨_, hy, rfl⟩ := Shape.text_carries a b h x hx
      exact ⟨{ other with type := x }, by simp [relationshipStep, hy, Except.map]⟩
    · obtain ⟨_, hy, rfl⟩ := Shape.text_carries a b h x hx
      exact ⟨{ other with map := x }, by simp [relationshipStep, hy, Except.map]⟩

theorem readField_carries : Carries Eq readField := by
  intro a b h field hField
  obtain ⟨entries, hEntries, hRecord⟩ := Result.bind_eq_ok.mp hField
  obtain ⟨draft, hDraft, -⟩ := Result.bind_eq_ok.mp hRecord
  obtain rfl := Shape.entriesAs_eq_ok hEntries
  have hTexts := Shape.record_texts hDraft
  obtain ⟨last, hLast⟩ := Shape.record_carries fieldStep_carries (h.corresponds hTexts)
    (Shape.texts_of_alike h hTexts) hDraft
  have hOther : readField b = .ok last.record :=
    Result.bind_eq_ok.mpr ⟨b.entries, Shape.entriesAs_of_alike h hEntries,
      Result.bind_eq_ok.mpr ⟨last, hLast, rfl⟩⟩
  exact ⟨last.record, hOther, readField_agrees h hField hOther⟩

theorem readRelationship_carries : Carries Eq readRelationship := by
  intro a b h relationship hRelationship
  obtain ⟨entries, hEntries, hRecord⟩ := Result.bind_eq_ok.mp hRelationship
  obtain ⟨draft, hDraft, hType⟩ := Result.bind_eq_ok.mp hRecord
  obtain rfl := Shape.entriesAs_eq_ok hEntries
  have hTexts := Shape.record_texts hDraft
  have hCorresponds := h.corresponds hTexts
  obtain ⟨last, hLast⟩ := Shape.record_carries relationshipStep_carries hCorresponds
    (Shape.texts_of_alike h hTexts) hDraft
  -- The type is not missing in the one record, and so it is not in the other.
  have hMet : "type" ∈ last.met := by
    have hFirst : "type" ∈ draft.met := by
      by_contra hMissing
      simp [hMissing] at hType
    obtain ⟨x, hx⟩ := (Shape.record_met hasField_target.known hDraft).mp hFirst
    obtain ⟨y, hy, -⟩ := h.under hx
    exact (Shape.record_met hasField_target.known hLast).mpr ⟨y, hy⟩
  have hOther : readRelationship b = .ok last.record := by
    refine Result.bind_eq_ok.mpr ⟨b.entries, Shape.entriesAs_of_alike h hEntries,
      Result.bind_eq_ok.mpr ⟨last, hLast, ?_⟩⟩
    rw [if_pos (by simpa using hMet)]
    rfl
  exact ⟨last.record, hOther, readRelationship_agrees h hRelationship hOther⟩

theorem modelStep_carries : StepCarries modelStep := by
  intro name a b h record hRead other
  rcases hRead with hUnknown | ⟨next, hKnown⟩
  · left
    rw [modelStep.eq_def] at hUnknown ⊢
    split at hUnknown <;> simp_all
  · right
    rcases modelStep_cases hKnown with ⟨rfl, x, hx, -⟩ | ⟨rfl, x, hx, -⟩
    · obtain ⟨y, hy, -⟩ := Shape.table_carries readField_carries a b h x hx
      exact ⟨{ other with mappings := y }, by simp [modelStep, hy, Except.map]⟩
    · obtain ⟨y, hy, -⟩ := Shape.table_carries readRelationship_carries a b h x hx
      exact ⟨{ other with relationships := y }, by simp [modelStep, hy, Except.map]⟩

theorem readModel_carries {entries others : List (Value × Value)}
    (hCorresponds : Corresponds entries others)
    (hTexts : ∀ entry ∈ others, entry.1.text?.isSome) {model : Model}
    (h : readModel entries = .ok model) : ∃ other, readModel others = .ok other := by
  obtain ⟨draft, hDraft, -⟩ := Result.bind_eq_ok.mp h
  obtain ⟨last, hLast⟩ := Shape.record_carries modelStep_carries hCorresponds hTexts hDraft
  exact ⟨last.record, Result.bind_eq_ok.mpr ⟨last, hLast, rfl⟩⟩

/-! ### Entries -/

theorem lookup?_of_mem {key : String} {entries : List (Value × Value)} {value : Value}
    (hUnique : Yaml.UniqueTexts entries) (h : (.str key, value) ∈ entries) :
    Value.lookup? key entries = some value := by
  have hSome : ∃ found, Value.lookup? key entries = some found := by
    clear hUnique
    induction entries using Yaml.Value.lookup?.induct key with
    | case1 => cases h
    | case2 k first rest hKey => exact ⟨first, by rw [Value.lookup?, if_pos hKey]⟩
    | case3 k first rest hKey ih =>
      rw [Value.lookup?, if_neg hKey]
      rcases List.mem_cons.mp h with hHead | hRest
      · obtain ⟨rfl, -⟩ : key = k ∧ value = first := by simpa using hHead
        simp at hKey
      · exact ih hRest
    | case4 entry rest hEntry ih =>
      rw [Yaml.Value.lookup?.eq_3 key entry rest hEntry]
      rcases List.mem_cons.mp h with rfl | hRest
      · exact absurd rfl (hEntry _ _)
      · exact ih hRest
  obtain ⟨found, hFound⟩ := hSome
  have hUnder : IsUnder entries key found := ⟨.str key, mem_of_lookup? hFound, rfl⟩
  rw [hFound, hUnder.unique hUnique ⟨.str key, h, rfl⟩]

/-- A model is read of every entry that is alike, rearranged at most. -/
theorem readEntry_carries {a b : Value} (h : Alike a b) {name : String} {model : Model}
    (hModel : readEntry name a = .ok (.model model)) :
    ∃ other, readEntry name b = .ok (.model other) ∧ model.Rearranged other := by
  obtain ⟨entries, rfl, hKind, hRead, hFault⟩ := readEntry_eq_model_iff.mp hModel
  obtain ⟨others, rfl, -, hEntries⟩ := Yaml.Value.same_map_iff.mp h.same
  have hType : (.str "type", .str modelKind) ∈ others := by
    obtain ⟨⟨key, kind⟩, hOther, hKey, hSame⟩ := hEntries _ (mem_of_kind? hKind)
    obtain rfl : key = .str "type" := Yaml.Value.same_str_iff.mp hKey
    obtain rfl : kind = .str modelKind := Yaml.Value.same_str_iff.mp hSame
    exact hOther
  have hUnique : Yaml.UniqueTexts others := h.right.entries
  have hTexts := readModel_texts hRead
  have hCorresponds := takeOut_corresponds h (mem_of_kind? hKind) hType hTexts
  have hOtherTexts : ∀ entry ∈ takeOut "type" others, entry.1.text?.isSome := by
    obtain ⟨taken, hTaken⟩ := takeOut_perm hType
    intro entry hEntry
    exact Shape.texts_of_alike h (texts_of_takeOut (mem_of_kind? hKind) hTexts) entry
      (hTaken.mem_iff.mpr (List.mem_cons_of_mem _ hEntry))
  obtain ⟨other, hOther⟩ := readModel_carries hCorresponds hOtherTexts hRead
  have hRearranged := readModel_agrees hCorresponds hRead hOther
  refine ⟨other, readEntry_eq_model_iff.mpr ⟨others, rfl, ?_, hOther, hRearranged.fault? hFault⟩,
    hRearranged⟩
  rw [kind?, lookup?_of_mem hUnique hType]

/-! ### Schemas -/

theorem texts_of_readsAs {written : List (Value × Value)} {entries : List (String × Entry)}
    (h : List.Forall₂ ReadsAs written entries) :
    Yaml.Value.texts written = entries.map (·.1) := by
  induction h with
  | nil => rfl
  | @cons first entry written entries hFirst _ ih =>
    have hText : first.1.text? = some entry.1 := by
      rw [hFirst.1]
      rfl
    rw [Yaml.Value.texts, List.filterMap_cons, hText, List.map_cons, ← ih]
    rfl

theorem isSome_of_readsAs {written : List (Value × Value)} {entries : List (String × Entry)}
    (h : List.Forall₂ ReadsAs written entries) : ∀ entry ∈ written, entry.1.text?.isSome := by
  intro entry hEntry
  obtain ⟨row, -, hRow⟩ := Result.exists_right h hEntry
  rw [hRow.1]
  rfl

/-- A schema has nothing but models. -/
def OnlyModels (schema : Schema) : Prop := ∀ row ∈ schema.entries, ∃ model, row.2 = .model model

theorem OnlyModels.names {schema : Schema} (h : schema.OnlyModels) :
    schema.models.map (·.1) = schema.entries.map (·.1) := by
  obtain ⟨entries⟩ := schema
  rw [OnlyModels] at h
  simp only [models] at h ⊢
  induction entries with
  | nil => rfl
  | cons row rest ih =>
    obtain ⟨name, entry⟩ := row
    obtain ⟨⟨model, hModel⟩, hRest⟩ := List.forall_mem_cons.mp h
    obtain rfl : entry = .model model := hModel
    simp only [List.filterMap_cons, List.map_cons, ih hRest]

/-- What is under a name in a document is under the same key in every document that is alike. -/
theorem readsAs_carries {written others : List (Value × Value)} {entries : List (String × Entry)}
    (h : Alike (.map written) (.map others)) (hRead : List.Forall₂ ReadsAs written entries)
    (hModels : ∀ row ∈ entries, ∃ model, row.2 = .model model) :
    ∀ other ∈ others, ∃ row, ReadsAs other row ∧ ∃ model, row.2 = .model model := by
  have hTexts := isSome_of_readsAs hRead
  intro other hOther
  obtain ⟨name, hName⟩ := Option.isSome_iff_exists.mp (Shape.texts_of_alike h hTexts other hOther)
  obtain ⟨x, ⟨key, hKey, hText⟩, hAlike⟩ :=
    Shape.under_of_corresponds (h.corresponds hTexts) ⟨other.1, hOther, hName⟩
  obtain ⟨⟨found, entry⟩, hRow, hReads⟩ := Result.exists_right hRead hKey
  obtain rfl : key = .str found := hReads.1
  obtain rfl : found = name := Option.some.inj hText
  -- The key has no tag in the one document, and so it has none in the other.
  have hOtherKey : other.1 = .str found := by
    obtain ⟨_, hOthers, -, hEntries⟩ := Yaml.Value.same_map_iff.mp h.same
    obtain rfl := Value.map.inj hOthers
    obtain ⟨same, hSame, hSameKey, -⟩ := hEntries _ hKey
    have hText : same.1 = .str found := Yaml.Value.same_str_iff.mp hSameKey
    have hUnique : Yaml.UniqueTexts others := h.right.entries
    rw [← Yaml.Value.entry_eq_of_text hUnique hSame hOther (by rw [hText]; rfl) hName, hText]
  obtain ⟨model, hModel⟩ := hModels _ hRow
  obtain rfl : entry = .model model := hModel
  obtain ⟨next, hNext, -⟩ := readEntry_carries hAlike hReads.2.2
  exact ⟨(found, .model next), ⟨hOtherKey, hReads.2.1, hNext⟩, next, rfl⟩

/-- A schema of nothing but models is read of every document that is alike. The models are the same
in another order perhaps, and each is rearranged at most. -/
theorem ofValue_carries {a b : Value} (h : Alike a b) {schema : Schema}
    (hSchema : ofValue a = .ok schema) (hModels : schema.OnlyModels) :
    ∃ other, ofValue b = .ok other ∧ Shuffled Model.Rearranged schema.models other.models := by
  rcases ofValue_eq_ok.mp hSchema with ⟨rfl, hEmpty⟩ | ⟨written, rfl, hRead⟩
  · obtain rfl := Yaml.Value.same_null_iff.mp h.same
    have hNone : schema.models = [] := by rw [models, hEmpty]; rfl
    exact ⟨{}, rfl, hNone ▸ .nil⟩
  obtain ⟨others, rfl, -, -⟩ := Yaml.Value.same_map_iff.mp h.same
  obtain ⟨entries, hEntries⟩ := Result.exists_forall₂ (readsAs_carries h hRead hModels)
  have hOtherRead : List.Forall₂ ReadsAs others entries := hEntries.imp fun _ _ hRow => hRow.1
  have hOtherModels : (Schema.mk entries).OnlyModels := by
    intro row hRow
    obtain ⟨_, -, -, hModel⟩ := Result.exists_left hEntries hRow
    exact hModel
  have hTexts := isSome_of_readsAs hRead
  refine ⟨⟨entries⟩, ofValue_eq_ok.mpr (.inr ⟨others, rfl, hOtherRead⟩), ?_, ?_, ?_⟩
  · rw [hModels.names, hOtherModels.names, ← texts_of_readsAs hRead, ← texts_of_readsAs hOtherRead]
    exact (h.corresponds hTexts).texts
  · rw [hModels.names, ← texts_of_readsAs hRead]
    exact Yaml.Value.texts_nodup h.left.entries
  · intro name model other hModel hOther
    obtain ⟨⟨key, x⟩, hx, hKey, -, hReadsX⟩ := Result.exists_left hRead (mem_models.mp hModel)
    obtain ⟨⟨otherKey, y⟩, hy, hOtherKey, -, hReadsY⟩ :=
      Result.exists_left hOtherRead (mem_models.mp hOther)
    obtain rfl : key = .str name := hKey
    obtain rfl : otherKey = .str name := hOtherKey
    exact readEntry_agrees (h.of_under ⟨_, hx, rfl⟩ ⟨_, hy, rfl⟩) hReadsX hReadsY

end Schema

end EntityGen
