import EntityGen.Proofs.Shape.Alike

/-! Models that are read from entries that are alike. They have the same fields and the same
relationships, in another order perhaps. -/

namespace EntityGen

open Yaml (Value)
open Yaml.Value (Alike Corresponds IsUnder)
open scoped List

namespace Model

/-- Two models have the same fields and the same relationships, in another order perhaps. -/
structure Rearranged (model other : Model) : Prop where
  mappings : Shuffled Eq model.mappings other.mappings
  relationships : Shuffled Eq model.relationships other.relationships

/-- The fields and the relationships of two models have the same names in the same order. -/
structure SameOrder (model other : Model) : Prop where
  mappings : model.mappings.map (·.1) = other.mappings.map (·.1)
  relationships : model.relationships.map (·.1) = other.relationships.map (·.1)

theorem Rearranged.eq_of_sameOrder {model other : Model} (h : Rearranged model other)
    (hOrder : SameOrder model other) : model = other := by
  change Model.mk model.mappings model.relationships = other
  rw [h.mappings.eq_of_names hOrder.mappings, h.relationships.eq_of_names hOrder.relationships]

end Model

namespace Schema

/-! ### Fields -/

theorem fieldStep_cases {name : String} {value : Value} {field next : Field}
    (h : fieldStep name value field = some (.ok next)) :
    (name = "type" ∧ ∃ type, Shape.text value = .ok type ∧ next = { field with type }) ∨
    (name = "map" ∧ ∃ map, Shape.optional Shape.text value = .ok map ∧ next = { field with map }) ∨
    (name = "required" ∧ ∃ required, Shape.flag value = .ok required ∧
      next = { field with required }) := by
  rw [fieldStep.eq_def] at h
  split at h
  · obtain ⟨type, hType, rfl⟩ := Result.map_eq_ok.mp (Option.some.inj h)
    exact .inl ⟨rfl, type, hType, rfl⟩
  · obtain ⟨map, hMap, rfl⟩ := Result.map_eq_ok.mp (Option.some.inj h)
    exact .inr (.inl ⟨rfl, map, hMap, rfl⟩)
  · obtain ⟨required, hRequired, rfl⟩ := Result.map_eq_ok.mp (Option.some.inj h)
    exact .inr (.inr ⟨rfl, required, hRequired, rfl⟩)
  · cases h

theorem hasField_type : Shape.HasField fieldStep "type" Shape.text Field.type where
  known := by simp [fieldStep]
  reads := fun value field next h => by
    rcases fieldStep_cases h with ⟨-, _, hRead, rfl⟩ | ⟨hName, -⟩ | ⟨hName, -⟩
    · exact hRead
    all_goals exact absurd hName (by decide)
  keeps := fun other hOther value field next h => by
    rcases fieldStep_cases h with ⟨hName, -⟩ | ⟨-, _, -, rfl⟩ | ⟨-, _, -, rfl⟩
    · exact absurd hName hOther
    all_goals rfl

theorem hasField_map :
    Shape.HasField fieldStep "map" (Shape.optional Shape.text) Field.map where
  known := by simp [fieldStep]
  reads := fun value field next h => by
    rcases fieldStep_cases h with ⟨hName, -⟩ | ⟨-, _, hRead, rfl⟩ | ⟨hName, -⟩
    · exact absurd hName (by decide)
    · exact hRead
    · exact absurd hName (by decide)
  keeps := fun other hOther value field next h => by
    rcases fieldStep_cases h with ⟨-, _, -, rfl⟩ | ⟨hName, -⟩ | ⟨-, _, -, rfl⟩
    · rfl
    · exact absurd hName hOther
    · rfl

theorem hasField_required : Shape.HasField fieldStep "required" Shape.flag Field.required where
  known := by simp [fieldStep]
  reads := fun value field next h => by
    rcases fieldStep_cases h with ⟨hName, -⟩ | ⟨hName, -⟩ | ⟨-, _, hRead, rfl⟩
    · exact absurd hName (by decide)
    · exact absurd hName (by decide)
    · exact hRead
  keeps := fun other hOther value field next h => by
    rcases fieldStep_cases h with ⟨-, _, -, rfl⟩ | ⟨-, _, -, rfl⟩ | ⟨hName, -⟩
    · rfl
    · rfl
    · exact absurd hName hOther

/-- Fields that are read from values that are alike are equal. -/
theorem readField_agrees {a b : Value} (h : Alike a b) {x y : Field} (hx : readField a = .ok x)
    (hy : readField b = .ok y) : x = y := by
  obtain ⟨entries, hEntries, hRecord⟩ := Result.bind_eq_ok.mp hx
  obtain ⟨draft, hDraft, hField⟩ := Result.bind_eq_ok.mp hRecord
  obtain ⟨others, hOthers, hOtherRecord⟩ := Result.bind_eq_ok.mp hy
  obtain ⟨other, hOther, hOtherField⟩ := Result.bind_eq_ok.mp hOtherRecord
  obtain rfl : draft.record = x := Except.ok.inj hField
  obtain rfl : other.record = y := Except.ok.inj hOtherField
  obtain rfl := Shape.entriesAs_eq_ok hEntries
  obtain rfl := Shape.entriesAs_eq_ok hOthers
  have hCorresponds := h.corresponds (Shape.record_texts hDraft)
  have hType : draft.record.type = other.record.type :=
    Shape.FieldOf.agrees hCorresponds rfl (fun _ _ _ h _ _ => Shape.text_agrees h)
      (Shape.record_field hasField_type hDraft) (Shape.record_field hasField_type hOther)
  have hMap : draft.record.map = other.record.map :=
    Shape.FieldOf.agrees hCorresponds rfl (fun _ _ _ h _ _ => Shape.optionalText_agrees h)
      (Shape.record_field hasField_map hDraft) (Shape.record_field hasField_map hOther)
  have hRequired : draft.record.required = other.record.required :=
    Shape.FieldOf.agrees hCorresponds rfl (fun _ _ _ h _ _ => Shape.flag_agrees h)
      (Shape.record_field hasField_required hDraft) (Shape.record_field hasField_required hOther)
  change Field.mk draft.record.type draft.record.map draft.record.required = other.record
  rw [hType, hMap, hRequired]

/-! ### Relationships -/

theorem relationshipStep_cases {name : String} {value : Value} {relationship next : Relationship}
    (h : relationshipStep name value relationship = some (.ok next)) :
    (name = "type" ∧ ∃ type, Shape.text value = .ok type ∧ next = { relationship with type }) ∨
    (name = "map" ∧ ∃ map, Shape.text value = .ok map ∧ next = { relationship with map }) := by
  rw [relationshipStep.eq_def] at h
  split at h
  · obtain ⟨type, hType, rfl⟩ := Result.map_eq_ok.mp (Option.some.inj h)
    exact .inl ⟨rfl, type, hType, rfl⟩
  · obtain ⟨map, hMap, rfl⟩ := Result.map_eq_ok.mp (Option.some.inj h)
    exact .inr ⟨rfl, map, hMap, rfl⟩
  · cases h

theorem hasField_target :
    Shape.HasField relationshipStep "type" Shape.text Relationship.type where
  known := by simp [relationshipStep]
  reads := fun value relationship next h => by
    rcases relationshipStep_cases h with ⟨-, _, hRead, rfl⟩ | ⟨hName, -⟩
    · exact hRead
    · exact absurd hName (by decide)
  keeps := fun other hOther value relationship next h => by
    rcases relationshipStep_cases h with ⟨hName, -⟩ | ⟨-, _, -, rfl⟩
    · exact absurd hName hOther
    · rfl

theorem hasField_relationshipMap :
    Shape.HasField relationshipStep "map" Shape.text Relationship.map where
  known := by simp [relationshipStep]
  reads := fun value relationship next h => by
    rcases relationshipStep_cases h with ⟨hName, -⟩ | ⟨-, _, hRead, rfl⟩
    · exact absurd hName (by decide)
    · exact hRead
  keeps := fun other hOther value relationship next h => by
    rcases relationshipStep_cases h with ⟨-, _, -, rfl⟩ | ⟨hName, -⟩
    · rfl
    · exact absurd hName hOther

theorem readRelationship_eq_ok {value : Value} {relationship : Relationship}
    (h : readRelationship value = .ok relationship) :
    ∃ draft, Shape.record relationshipStep Shape.pass { type := "" } value.entries = .ok draft ∧
      relationship = draft.record := by
  obtain ⟨entries, hEntries, hRecord⟩ := Result.bind_eq_ok.mp h
  obtain ⟨draft, hDraft, hType⟩ := Result.bind_eq_ok.mp hRecord
  rw [Shape.entriesAs_eq_ok hEntries]
  split at hType
  · exact ⟨draft, hDraft, (Except.ok.inj hType).symm⟩
  · cases hType

/-- Relationships that are read from values that are alike are equal. -/
theorem readRelationship_agrees {a b : Value} (h : Alike a b) {x y : Relationship}
    (hx : readRelationship a = .ok x) (hy : readRelationship b = .ok y) : x = y := by
  obtain ⟨draft, hDraft, rfl⟩ := readRelationship_eq_ok hx
  obtain ⟨other, hOther, rfl⟩ := readRelationship_eq_ok hy
  have hCorresponds := h.corresponds (Shape.record_texts hDraft)
  have hType : draft.record.type = other.record.type :=
    Shape.FieldOf.agrees hCorresponds rfl (fun _ _ _ h _ _ => Shape.text_agrees h)
      (Shape.record_field hasField_target hDraft) (Shape.record_field hasField_target hOther)
  have hMap : draft.record.map = other.record.map :=
    Shape.FieldOf.agrees hCorresponds rfl (fun _ _ _ h _ _ => Shape.text_agrees h)
      (Shape.record_field hasField_relationshipMap hDraft)
      (Shape.record_field hasField_relationshipMap hOther)
  change Relationship.mk draft.record.type draft.record.map = other.record
  rw [hType, hMap]

/-! ### Models -/

theorem modelStep_cases {name : String} {value : Value} {model next : Model}
    (h : modelStep name value model = some (.ok next)) :
    (name = "mappings" ∧ ∃ mappings, Shape.table readField value = .ok mappings ∧
      next = { model with mappings }) ∨
    (name = "relationships" ∧ ∃ relationships,
      Shape.table readRelationship value = .ok relationships ∧
      next = { model with relationships }) := by
  rw [modelStep.eq_def] at h
  split at h
  · obtain ⟨mappings, hMappings, rfl⟩ := Result.map_eq_ok.mp (Option.some.inj h)
    exact .inl ⟨rfl, mappings, hMappings, rfl⟩
  · obtain ⟨relationships, hRelationships, rfl⟩ := Result.map_eq_ok.mp (Option.some.inj h)
    exact .inr ⟨rfl, relationships, hRelationships, rfl⟩
  · cases h

theorem hasField_mappings :
    Shape.HasField modelStep "mappings" (Shape.table readField) Model.mappings where
  known := by simp [modelStep]
  reads := fun value model next h => by
    rcases modelStep_cases h with ⟨-, _, hRead, rfl⟩ | ⟨hName, -⟩
    · exact hRead
    · exact absurd hName (by decide)
  keeps := fun other hOther value model next h => by
    rcases modelStep_cases h with ⟨hName, -⟩ | ⟨-, _, -, rfl⟩
    · exact absurd hName hOther
    · rfl

theorem hasField_relationships :
    Shape.HasField modelStep "relationships" (Shape.table readRelationship)
      Model.relationships where
  known := by simp [modelStep]
  reads := fun value model next h => by
    rcases modelStep_cases h with ⟨hName, -⟩ | ⟨-, _, hRead, rfl⟩
    · exact absurd hName (by decide)
    · exact hRead
  keeps := fun other hOther value model next h => by
    rcases modelStep_cases h with ⟨-, _, -, rfl⟩ | ⟨hName, -⟩
    · rfl
    · exact absurd hName hOther

/-- Moving the last element of a list into a place drops what was there. -/
theorem set_last_dropLast_perm {α : Type} {list : List α} {i : Nat} {last : α}
    (h : i < list.length) (hLast : list.getLast? = some last) :
    list ~ list[i] :: (list.set i last).dropLast := by
  have hEnd : (list.set i last).getLast? = some last := by
    rw [List.getLast?_eq_getElem?] at hLast ⊢
    rw [List.length_set, List.getElem?_set]
    split
    · rfl
    · exact hLast
  have hSet : (list.set i last).dropLast ++ [last] = list.set i last :=
    List.dropLast_append_getLast? _ hEnd
  have hPerm : last :: (list.set i last).dropLast ~ last :: list.eraseIdx i :=
    calc last :: (list.set i last).dropLast
      _ ~ (list.set i last).dropLast ++ [last] := (List.perm_append_singleton _ _).symm
      _ = list.set i last := hSet
      _ ~ last :: list.eraseIdx i := List.set_perm_cons_eraseIdx h last
  exact (List.getElem_cons_eraseIdx_perm h).symm.trans (hPerm.cons_inv.symm.cons _)

/-- What is taken out of a mapping is an entry under the key. -/
theorem takeOut_perm {key : String} {entries : List (Value × Value)} {value : Value}
    (h : (.str key, value) ∈ entries) :
    ∃ taken, entries ~ (.str key, taken) :: takeOut key entries := by
  have hFound : (entries.findIdx? fun entry => entry.1.same (.str key)).isSome := by
    rw [List.findIdx?_isSome, List.any_eq_true]
    exact ⟨_, h, Yaml.Value.same_str_right_iff.mpr rfl⟩
  obtain ⟨i, hi⟩ := Option.isSome_iff_exists.mp hFound
  obtain ⟨hLength, hKey, -⟩ := List.findIdx?_eq_some_iff_getElem.mp hi
  have hLast := List.getLast?_eq_some_getLast (List.ne_nil_of_mem h)
  refine ⟨entries[i].2, ?_⟩
  rw [takeOut, hi, hLast]
  have hEntry : (.str key, entries[i].2) = entries[i] :=
    Prod.ext (Yaml.Value.same_str_right_iff.mp hKey).symm rfl
  rw [hEntry]
  exact set_last_dropLast_perm hLength hLast

theorem mem_of_lookup? {key : String} {entries : List (Value × Value)} {value : Value}
    (h : Value.lookup? key entries = some value) : (.str key, value) ∈ entries := by
  induction entries using Yaml.Value.lookup?.induct key with
  | case1 => cases h
  | case2 k first rest hKey =>
    rw [Value.lookup?, if_pos hKey] at h
    rw [← eq_of_beq hKey, Option.some.inj h]
    exact List.mem_cons_self
  | case3 k first rest hKey ih =>
    rw [Value.lookup?, if_neg hKey] at h
    exact List.mem_cons_of_mem _ (ih h)
  | case4 entry rest hEntry ih =>
    rw [Yaml.Value.lookup?.eq_3 key entry rest hEntry] at h
    exact List.mem_cons_of_mem _ (ih h)

theorem mem_of_kind? {entries : List (Value × Value)} {kind : String}
    (h : kind? entries = some kind) : (.str "type", .str kind) ∈ entries := by
  rw [kind?] at h
  split at h
  · rename_i found hFound
    obtain rfl : found = kind := Option.some.inj h
    exact mem_of_lookup? hFound
  · cases h

/-- An entry is a model if it is a mapping with the type of models whose other entries are read as
that model, and if the model has no fault. -/
theorem readEntry_eq_model_iff {name : String} {value : Value} {model : Model} :
    readEntry name value = .ok (.model model) ↔
      ∃ entries, value = .map entries ∧ kind? entries = some modelKind ∧
        readModel (takeOut "type" entries) = .ok model ∧ model.fault? = none := by
  constructor
  · intro h
    rw [readEntry.eq_def] at h
    split at h
    · rename_i entries
      split at h
      · cases h
      · rename_i kind hKind
        split at h
        · cases h
        · rename_i hModel
          obtain rfl : kind = modelKind := by simpa using hModel
          split at h
          · cases h
          · rename_i read hRead
            split at h
            · cases h
            · rename_i hFault
              obtain rfl : read = model := Entry.model.inj (Except.ok.inj h)
              exact ⟨entries, rfl, hKind, hRead, hFault⟩
    · cases h
  · rintro ⟨entries, rfl, hKind, hRead, hFault⟩
    simp [readEntry, hKind, hRead, hFault]

theorem texts_of_takeOut {key : String} {entries : List (Value × Value)} {value : Value}
    (h : (.str key, value) ∈ entries)
    (hTexts : ∀ entry ∈ takeOut key entries, entry.1.text?.isSome) :
    ∀ entry ∈ entries, entry.1.text?.isSome := by
  obtain ⟨taken, hTaken⟩ := takeOut_perm h
  intro entry hEntry
  rcases List.mem_cons.mp (hTaken.mem_iff.mp hEntry) with rfl | hRest
  · rfl
  · exact hTexts entry hRest

/-- Mappings that are alike still correspond when the type is taken out of each. -/
theorem takeOut_corresponds {entries others : List (Value × Value)} {kind otherKind : Value}
    (h : Alike (.map entries) (.map others)) (hKind : (.str "type", kind) ∈ entries)
    (hOtherKind : (.str "type", otherKind) ∈ others)
    (hTexts : ∀ entry ∈ takeOut "type" entries, entry.1.text?.isSome) :
    Corresponds (takeOut "type" entries) (takeOut "type" others) := by
  obtain ⟨taken, hTaken⟩ := takeOut_perm hKind
  obtain ⟨otherTaken, hOtherTaken⟩ := takeOut_perm hOtherKind
  exact (h.corresponds (texts_of_takeOut hKind hTexts)).remove "type" hTaken hOtherTaken rfl rfl

/-- Models that are read from entries that correspond are rearranged at most. -/
theorem readModel_agrees {entries others : List (Value × Value)}
    (hCorresponds : Corresponds entries others) {model other : Model}
    (hModel : readModel entries = .ok model) (hOther : readModel others = .ok other) :
    model.Rearranged other := by
  obtain ⟨draft, hDraft, hRecord⟩ := Result.bind_eq_ok.mp hModel
  obtain ⟨second, hSecond, hOtherRecord⟩ := Result.bind_eq_ok.mp hOther
  obtain rfl : draft.record = model := Except.ok.inj hRecord
  obtain rfl : second.record = other := Except.ok.inj hOtherRecord
  constructor
  · refine Shape.FieldOf.agrees hCorresponds .nil (fun a b _ h x y hx hy => ?_)
      (Shape.record_field hasField_mappings hDraft) (Shape.record_field hasField_mappings hSecond)
    exact Shape.table_agrees h (fun _ _ _ _ h _ _ => readField_agrees h) hx hy
  · refine Shape.FieldOf.agrees hCorresponds .nil (fun a b _ h x y hx hy => ?_)
      (Shape.record_field hasField_relationships hDraft)
      (Shape.record_field hasField_relationships hSecond)
    exact Shape.table_agrees h (fun _ _ _ _ h _ _ => readRelationship_agrees h) hx hy

theorem readModel_texts {entries : List (Value × Value)} {model : Model}
    (h : readModel entries = .ok model) : ∀ entry ∈ entries, entry.1.text?.isSome := by
  obtain ⟨draft, hDraft, -⟩ := Result.bind_eq_ok.mp h
  exact Shape.record_texts hDraft

/-- Models that are read from entries that are alike are rearranged at most. -/
theorem readEntry_agrees {a b : Value} (h : Alike a b) {name : String} {model other : Model}
    (hModel : readEntry name a = .ok (.model model))
    (hOther : readEntry name b = .ok (.model other)) : model.Rearranged other := by
  obtain ⟨entries, rfl, hKind, hRead, -⟩ := readEntry_eq_model_iff.mp hModel
  obtain ⟨others, rfl, hOtherKind, hOtherRead, -⟩ := readEntry_eq_model_iff.mp hOther
  exact readModel_agrees (takeOut_corresponds h (mem_of_kind? hKind) (mem_of_kind? hOtherKind)
    (readModel_texts hRead)) hRead hOtherRead

end Schema

end EntityGen
