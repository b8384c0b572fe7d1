import EntityGen.Json.Basic
import EntityGen.Proofs.Yaml.Alike
import EntityGen.Yaml.Writer

/-! The document tree of a JSON value. It has no tags, so that it can be written, and its keys are
texts. -/

namespace EntityGen.Json

open Yaml (Value)
open Yaml.Writer (Position nodeText? itemsText? entriesText? keyText?)

theorem entriesToValues_eq_map (entries : List (String × Json)) :
    entriesToValues entries = entries.map fun entry => (.str entry.1, entry.2.toValue) := by
  induction entries with
  | nil => rfl
  | cons entry rest ih => rw [entriesToValues, ih, List.map_cons]

/-! ### Writing -/

theorem nodeText?_str (position : Position) (s : String) :
    (nodeText? position none (.str s)).isSome := by
  simp [nodeText?, Yaml.Writer.flatText?]

mutual

theorem nodeText?_toValue (position : Position) :
    ∀ json : Json, (nodeText? position none json.toValue).isSome
  | .null | .bool _ | .int _ | .float _ => by
    simp [toValue, nodeText?, Yaml.Writer.flatText?]
  | .str s => nodeText?_str position s
  | .arr [] => by simp [toValue, itemsToValues, nodeText?, Yaml.Writer.flatText?]
  | .arr (item :: items) => by
    have h := itemsText?_itemsToValues (position.sequenceIndent false) (item :: items)
    obtain ⟨text, hText⟩ := Option.isSome_iff_exists.mp h
    simp only [itemsToValues] at hText
    simp [toValue, itemsToValues, nodeText?, hText]
  | .obj [] => by simp [toValue, entriesToValues, nodeText?, Yaml.Writer.flatText?]
  | .obj (entry :: entries) => by
    have h := entriesText?_entriesToValues position.mappingIndent (entry :: entries)
    obtain ⟨text, hText⟩ := Option.isSome_iff_exists.mp h
    simp only [entriesToValues] at hText
    simp [toValue, entriesToValues, nodeText?, hText]

theorem itemsText?_itemsToValues (indent : Nat) :
    ∀ items : List Json, (itemsText? indent (itemsToValues items)).isSome
  | [] => by simp [itemsToValues, itemsText?]
  | item :: items => by
    obtain ⟨first, hFirst⟩ :=
      Option.isSome_iff_exists.mp (nodeText?_toValue (.afterMark indent false) item)
    obtain ⟨rest, hRest⟩ := Option.isSome_iff_exists.mp (itemsText?_itemsToValues indent items)
    simp [itemsToValues, itemsText?, hFirst, hRest]

/-- A key that is too long for one line is written after a mark. -/
theorem entriesText?_entriesToValues (indent : Nat) :
    ∀ entries : List (String × Json), (entriesText? indent (entriesToValues entries)).isSome
  | [] => by simp [entriesToValues, entriesText?]
  | (key, value) :: entries => by
    obtain ⟨rest, hRest⟩ :=
      Option.isSome_iff_exists.mp (entriesText?_entriesToValues indent entries)
    rw [entriesToValues, entriesText?]
    rcases keyText? (.str key) with _ | text
    · obtain ⟨first, hFirst⟩ :=
        Option.isSome_iff_exists.mp (nodeText?_str (.afterMark indent true) key)
      obtain ⟨second, hSecond⟩ :=
        Option.isSome_iff_exists.mp (nodeText?_toValue (.afterMark indent true) value)
      simp [hFirst, hSecond, hRest]
    · obtain ⟨second, hSecond⟩ :=
        Option.isSome_iff_exists.mp (nodeText?_toValue (.afterKey indent) value)
      simp [hSecond, hRest]

end

/-- Every JSON value can be written as a document. -/
theorem exists_write? (json : Json) : ∃ text, Yaml.write? json.toValue = some text := by
  obtain ⟨text, hText⟩ := Option.isSome_iff_exists.mp (nodeText?_toValue .root json)
  exact ⟨String.ofList text, by rw [Yaml.write?, hText]; rfl⟩

/-! ### Keys -/

theorem uniqueTexts_of_keys {entries : List (String × Json)} (hNodup : (entries.map (·.1)).Nodup) :
    Yaml.UniqueTexts (entriesToValues entries) := by
  rw [entriesToValues_eq_map, Yaml.UniqueTexts, List.pairwise_map]
  rw [List.Nodup, List.pairwise_map] at hNodup
  refine hNodup.imp fun {first second} hDiffer name hFirst hSecond => hDiffer ?_
  obtain rfl : first.1 = name := Option.some.inj hFirst
  exact (Option.some.inj hSecond).symm

/-- An object with different keys has no text for two keys, if none of its values has. -/
theorem uniqueTexts_obj {entries : List (String × Json)} (hNodup : (entries.map (·.1)).Nodup)
    (hValues : ∀ entry ∈ entries, entry.2.toValue.UniqueTexts) :
    (Json.obj entries).toValue.UniqueTexts := by
  refine .map (fun entry hEntry => ?_) (fun entry hEntry => ?_) (uniqueTexts_of_keys hNodup)
  all_goals
    rw [entriesToValues_eq_map] at hEntry
    obtain ⟨row, hRow, rfl⟩ := List.mem_map.mp hEntry
  · exact .str row.1
  · exact hValues row hRow

theorem nodup_of_distinct {entries : List (String × Json)}
    (h : (entriesToValues entries).Pairwise fun first second => first.1.same second.1 = false) :
    (entries.map (·.1)).Nodup := by
  rw [entriesToValues_eq_map, List.pairwise_map] at h
  rw [List.Nodup, List.pairwise_map]
  refine h.imp fun {first second} hDiffer hSame => ?_
  simp [hSame, Value.same] at hDiffer

mutual

/-- Where no key stands twice, no text is that of two keys. -/
theorem uniqueTexts_toValue : ∀ json : Json, json.toValue.Distinct → json.toValue.UniqueTexts
  | .null, _ => .null
  | .bool b, _ => .bool b
  | .int i, _ => .int i
  | .float x, _ => .float x
  | .str s, _ => .str s
  | .arr items, h => by
    rw [toValue] at h ⊢
    cases h with
    | seq hItems => exact .seq (uniqueTexts_itemsToValues items hItems)
  | .obj entries, h => by
    rw [toValue] at h
    cases h with
    | map _ hValues hDistinct =>
      exact uniqueTexts_obj (nodup_of_distinct hDistinct) (uniqueTexts_values entries hValues)

theorem uniqueTexts_itemsToValues : ∀ items : List Json,
    (∀ item ∈ itemsToValues items, item.Distinct) →
      ∀ item ∈ itemsToValues items, item.UniqueTexts
  | [], _, _, h => nomatch h
  | first :: rest, hItems, item, h => by
    rw [itemsToValues] at hItems h
    obtain ⟨hFirst, hRest⟩ := List.forall_mem_cons.mp hItems
    rcases List.mem_cons.mp h with rfl | hMem
    · exact uniqueTexts_toValue first hFirst
    · exact uniqueTexts_itemsToValues rest hRest item hMem

theorem uniqueTexts_values : ∀ entries : List (String × Json),
    (∀ entry ∈ entriesToValues entries, entry.2.Distinct) →
      ∀ entry ∈ entries, entry.2.toValue.UniqueTexts
  | [], _, _, h => nomatch h
  | (key, value) :: rest, hValues, entry, h => by
    rw [entriesToValues] at hValues
    obtain ⟨hFirst, hRest⟩ := List.forall_mem_cons.mp hValues
    rcases List.mem_cons.mp h with rfl | hMem
    · exact uniqueTexts_toValue value hFirst
    · exact uniqueTexts_values rest hRest entry hMem

end

end EntityGen.Json
