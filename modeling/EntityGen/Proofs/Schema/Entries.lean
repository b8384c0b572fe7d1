import EntityGen.Proofs.Loading
import EntityGen.Proofs.Result
import EntityGen.Proofs.Yaml.Distinct

/-! The entries of a schema that was read. They stand in the order of the document, each under the
key of its mapping, and their names can name directories. -/

namespace EntityGen

open Yaml (Value)

namespace Schema

/-- An entry of a schema is what is read from an entry of the document. -/
def ReadsAs (written : Value × Value) (entry : String × Entry) : Prop :=
  written.1 = .str entry.1 ∧ isModelName entry.1 ∧ readEntry entry.1 written.2 = .ok entry.2

theorem readNamed_eq_ok {key value : Value} {entry : String × Entry} :
    readNamed key value = .ok entry ↔ ReadsAs (key, value) entry := by
  obtain ⟨name, entry⟩ := entry
  rcases key with _ | _ | _ | _ | text | _ | _ | _ <;>
    simp only [readNamed, ReadsAs, reduceCtorEq, false_and, Value.str.injEq]
  split
  · rename_i hName
    simp only [Result.map_eq_ok, Prod.mk.injEq]
    constructor
    · rintro ⟨read, hRead, rfl, rfl⟩
      exact ⟨rfl, hName, hRead⟩
    · rintro ⟨rfl, _, hRead⟩
      exact ⟨entry, hRead, rfl, rfl⟩
  · rename_i hName
    simp only [reduceCtorEq, false_iff]
    rintro ⟨rfl, h, _⟩
    exact hName h

/-- A schema is read from null, or entry by entry from a mapping. -/
theorem ofValue_eq_ok {value : Value} {schema : Schema} :
    ofValue value = .ok schema ↔
      (value = .null ∧ schema.entries = []) ∨
        ∃ written, value = .map written ∧ List.Forall₂ ReadsAs written schema.entries := by
  obtain ⟨entries⟩ := schema
  rcases value with _ | _ | _ | _ | _ | _ | written | _ <;>
    simp only [ofValue, reduceCtorEq, false_and, exists_false, or_self, true_and, or_false,
      false_or, Value.map.injEq, exists_eq_left', Except.ok.injEq, Schema.mk.injEq]
  · exact eq_comm
  · simp only [Result.map_eq_ok, Result.mapM_eq_ok, readNamed_eq_ok, Schema.mk.injEq,
      exists_eq_right]

/-- The names of a schema's entries are the keys of its document, in order. -/
theorem ofValue_names {value : Value} {schema : Schema} (h : ofValue value = .ok schema)
    (name : String) : schema.contains name ↔ IsTopLevelKey value name := by
  simp only [contains, List.any_eq_true, beq_iff_eq, IsTopLevelKey]
  rcases ofValue_eq_ok.mp h with ⟨rfl, hEmpty⟩ | ⟨written, rfl, hRead⟩
  · simp [hEmpty]
  · simp only [Value.map.injEq, exists_and_left, exists_eq_left']
    constructor
    · rintro ⟨entry, hEntry, rfl⟩
      obtain ⟨⟨key, value⟩, hKey, hReads⟩ := Result.exists_left hRead hEntry
      exact ⟨value, by rw [← hReads.1]; exact hKey⟩
    · rintro ⟨value, hValue⟩
      obtain ⟨entry, hEntry, hReads⟩ := Result.exists_right hRead hValue
      exact ⟨entry, hEntry, (Value.str.inj hReads.1).symm⟩

/-- Entries that are read under different keys have different names. -/
theorem readsAs_nodup {written : List (Value × Value)} {entries : List (String × Entry)}
    (hDistinct : written.Pairwise fun first second => first.1.same second.1 = false)
    (hRead : List.Forall₂ ReadsAs written entries) : (entries.map (·.1)).Nodup := by
  induction hRead with
  | nil => exact .nil
  | @cons first entry written entries hFirst hRest ih =>
    rw [List.pairwise_cons] at hDistinct
    rw [List.map_cons, List.nodup_cons]
    refine ⟨fun hMem => ?_, ih hDistinct.2⟩
    obtain ⟨other, hOther, hSame⟩ := List.mem_map.mp hMem
    obtain ⟨second, hSecond, hReads⟩ := Result.exists_left hRest hOther
    have hDiffer := hDistinct.1 second hSecond
    rw [hFirst.1, hReads.1, hSame] at hDiffer
    simp [Value.same] at hDiffer

/-- Different entries of a schema have different names. -/
theorem ofValue_nodup {value : Value} {schema : Schema} (hValue : value.Distinct)
    (h : ofValue value = .ok schema) : (schema.entries.map (·.1)).Nodup := by
  rcases ofValue_eq_ok.mp h with ⟨-, hEmpty⟩ | ⟨written, rfl, hRead⟩
  · simp [hEmpty]
  · cases hValue with
    | map _ _ hDistinct => exact readsAs_nodup hDistinct hRead

theorem models_sublist (schema : Schema) :
    (schema.models.map (·.1)).Sublist (schema.entries.map (·.1)) := by
  rw [models, List.map_filterMap]
  induction schema.entries with
  | nil => exact .slnil
  | cons entry rest ih =>
    obtain ⟨name, entry⟩ := entry
    cases entry with
    | model definition => exact ih.cons_cons name
    | other kind => exact ih.cons name

section ModelNames

variable {value : Value} {schema : Schema} (h : ofValue value = .ok schema) {name : String}
include h

theorem isModelName_of_contains (hName : schema.contains name = true) : isModelName name = true := by
  obtain ⟨entry, hEntry, hSame⟩ := List.any_eq_true.mp hName
  obtain rfl : entry.1 = name := by simpa using hSame
  rcases ofValue_eq_ok.mp h with ⟨-, hEmpty⟩ | ⟨written, rfl, hRead⟩
  · simp [hEmpty] at hEntry
  · obtain ⟨_, -, hReads⟩ := Result.exists_left hRead hEntry
    exact hReads.2.1

theorem isModelName_of_mem_models {model : Model} (hModel : (name, model) ∈ schema.models) :
    isModelName name = true := by
  have hName := (models_sublist schema).subset (List.mem_map_of_mem hModel)
  obtain ⟨entry, hEntry, rfl⟩ := List.mem_map.mp hName
  exact isModelName_of_contains h (List.any_eq_true.mpr ⟨entry, hEntry, beq_self_eq_true _⟩)

end ModelNames

end Schema

end EntityGen
