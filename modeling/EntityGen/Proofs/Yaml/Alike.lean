import EntityGen.Changes
import EntityGen.Proofs.Yaml.Distinct
import Mathlib.Data.List.Perm.Subperm

/-! Values that are the same, seen through the texts of their keys. A key may be written with a tag
and without one; where no mapping has both, values that are the same hold under each text values that
are the same again. -/

namespace EntityGen.Yaml

/-- No two keys of a mapping have one text. -/
def UniqueTexts (entries : List (Value × Value)) : Prop :=
  entries.Pairwise fun first second =>
    ∀ name, first.1.text? = some name → second.1.text? ≠ some name

namespace Value

/-- No two keys of any mapping in a value have one text. -/
abbrev UniqueTexts : Value → Prop := Everywhere Yaml.UniqueTexts

/-- A value stands under a text among the entries of a mapping. -/
def IsUnder (entries : List (Value × Value)) (name : String) (value : Value) : Prop :=
  ∃ key, (key, value) ∈ entries ∧ key.text? = some name

/-- Two values that are the same and in which no two keys have one text. -/
structure Alike (a b : Value) : Prop where
  same : a.same b = true
  left : a.UniqueTexts
  right : b.UniqueTexts

variable {a b : Value}

theorem same_str_iff {s : String} : same (.str s) b = true ↔ b = .str s := by
  cases b with
  | str t => rw [same, beq_iff_eq, str.injEq, eq_comm]
  | _ => simp [same]

theorem same_str_right_iff {s : String} : same a (.str s) = true ↔ a = .str s := by
  cases a <;> simp [same]

theorem same_null_iff : same .null b = true ↔ b = .null := by
  cases b <;> simp [same]

theorem eq_null_of_same (h : same a .null = true) : a = .null := by
  cases a <;> simp [same] at h ⊢

theorem same_tagged_iff {tag : String} :
    same (.tagged tag a) b = true ↔ ∃ inner, b = .tagged tag inner ∧ same a inner = true := by
  cases b with
  | tagged other inner =>
    rw [same, Bool.and_eq_true, beq_iff_eq]
    constructor
    · rintro ⟨rfl, hSame⟩
      exact ⟨inner, rfl, hSame⟩
    · rintro ⟨_, ⟨rfl, rfl⟩, hSame⟩
      exact ⟨rfl, hSame⟩
  | _ => simp [same]

theorem sameEntries_iff {entries others : List (Value × Value)} :
    sameEntries entries others = true ↔ ∀ entry ∈ entries, ∃ other ∈ others,
      same entry.1 other.1 = true ∧ same entry.2 other.2 = true := by
  induction entries with
  | nil => simp [sameEntries]
  | cons entry rest ih =>
    obtain ⟨key, value⟩ := entry
    simp only [sameEntries, Bool.and_eq_true, ih, List.any_eq_true, List.forall_mem_cons]

theorem same_map_iff {entries : List (Value × Value)} :
    same (.map entries) b = true ↔ ∃ others, b = .map others ∧ entries.length = others.length ∧
      ∀ entry ∈ entries, ∃ other ∈ others,
        same entry.1 other.1 = true ∧ same entry.2 other.2 = true := by
  cases b <;> simp [same, sameEntries_iff]

theorem same_untagged (h : a.same b = true) : a.untagged.same b.untagged = true := by
  induction a using untagged.induct generalizing b with
  | case1 tag value ih =>
    obtain ⟨inner, hTagged, hSame⟩ := same_tagged_iff.mp h
    simpa only [hTagged, untagged] using ih hSame
  | case2 value hValue =>
    rw [untagged.eq_2 value hValue]
    cases value with
    | tagged tag inner => exact absurd rfl (hValue tag inner)
    | _ => cases b <;> simp_all [same, untagged]

theorem Everywhere.untagged {good : List (Value × Value) → Prop} (h : Everywhere good a) :
    Everywhere good a.untagged := by
  induction a using untagged.induct with
  | case1 tag value ih =>
    cases h with
    | tagged hValue => exact ih hValue
  | case2 value hValue => rwa [untagged.eq_2 value hValue]

namespace Alike

theorem untagged (h : Alike a b) : Alike a.untagged b.untagged :=
  ⟨same_untagged h.same, h.left.untagged, h.right.untagged⟩

end Alike

theorem text?_eq_some_iff {name : String} : a.text? = some name ↔ a.untagged = .str name := by
  rw [text?]
  split <;> simp_all

/-- Keys that are the same have the same text. -/
theorem text?_eq_iff_of_same (h : a.same b = true) {name : String} :
    a.text? = some name ↔ b.text? = some name := by
  have hSame := same_untagged h
  rw [text?_eq_some_iff, text?_eq_some_iff]
  constructor
  · intro hText
    rwa [hText, same_str_iff] at hSame
  · intro hText
    rwa [hText, same_str_right_iff] at hSame

section Entries

variable {entries others : List (Value × Value)} {name : String} {value : Value}

theorem isUnder_cons {key first : Value} :
    IsUnder ((key, first) :: entries) name value ↔
      (key.text? = some name ∧ value = first) ∨ IsUnder entries name value := by
  simp only [IsUnder, List.mem_cons, Prod.mk.injEq, or_and_right, exists_or]
  refine or_congr_left ⟨?_, ?_⟩
  · rintro ⟨_, ⟨rfl, rfl⟩, hText⟩
    exact ⟨hText, rfl⟩
  · rintro ⟨hText, rfl⟩
    exact ⟨key, ⟨rfl, rfl⟩, hText⟩

/-- Where texts are unique, a text has one entry. -/
theorem entry_eq_of_text (hUnique : Yaml.UniqueTexts entries) {first second : Value × Value}
    (hFirst : first ∈ entries) (hSecond : second ∈ entries) (hText : first.1.text? = some name)
    (hSame : second.1.text? = some name) : first = second := by
  induction hUnique with
  | nil => cases hFirst
  | cons hHead _ ih =>
    rcases List.mem_cons.mp hFirst with rfl | hRest <;>
      rcases List.mem_cons.mp hSecond with hEqual | hTail
    · exact hEqual.symm
    · exact absurd hSame (hHead _ hTail name hText)
    · exact absurd hText (hHead _ hRest name (hEqual ▸ hSame))
    · exact ih hRest hTail

theorem IsUnder.unique (hUnique : Yaml.UniqueTexts entries) {other : Value}
    (hValue : IsUnder entries name value) (hOther : IsUnder entries name other) :
    value = other := by
  obtain ⟨key, hKey, hText⟩ := hValue
  obtain ⟨second, hSecond, hSame⟩ := hOther
  exact (Prod.mk.inj (entry_eq_of_text hUnique hKey hSecond hText hSame)).2

end Entries

theorem Everywhere.entries {good : List (Value × Value) → Prop} (hGood : good [])
    (h : Everywhere good a) : good a.entries := by
  have hUntagged := h.untagged
  rw [Value.entries]
  split
  · rename_i hMap
    rw [hMap] at hUntagged
    cases hUntagged with
    | map _ _ hHere => exact hHere
  · exact hGood

theorem Everywhere.isUnder {good : List (Value × Value) → Prop} (h : Everywhere good a)
    {name : String} {value : Value} (hValue : IsUnder a.entries name value) : Everywhere good value := by
  obtain ⟨key, hKey, -⟩ := hValue
  have hUntagged := h.untagged
  rw [Value.entries] at hKey
  split at hKey
  · rename_i hMap
    rw [hMap] at hUntagged
    cases hUntagged with
    | map _ hValues _ => exact hValues _ hKey
  · cases hKey

theorem UniqueTexts.entries (h : a.UniqueTexts) : Yaml.UniqueTexts a.entries :=
  Everywhere.entries .nil h

namespace Alike

theorem under {a b : Value} (h : Alike a b) {name : String} {x : Value}
    (hx : IsUnder a.entries name x) : ∃ y, IsUnder b.entries name y ∧ Alike x y := by
  obtain ⟨key, hKey, hText⟩ := hx
  have hSame := h.untagged.same
  rw [Value.entries] at hKey
  split at hKey
  · rename_i entries hMap
    rw [hMap, same_map_iff] at hSame
    obtain ⟨others, hOthers, -, hEntries⟩ := hSame
    obtain ⟨⟨other, y⟩, hOther, hKeys, hValues⟩ := hEntries _ hKey
    have hy : IsUnder b.entries name y := by
      rw [Value.entries, hOthers]
      exact ⟨other, hOther, (text?_eq_iff_of_same hKeys).mp hText⟩
    refine ⟨y, hy, hValues, h.left.isUnder ⟨key, ?_, hText⟩, h.right.isUnder hy⟩
    rwa [Value.entries, hMap]
  · cases hKey

/-- Under a text, values that are alike hold values that are alike. -/
theorem of_under {a b : Value} (h : Alike a b) {name : String} {x y : Value}
    (hx : IsUnder a.entries name x) (hy : IsUnder b.entries name y) : Alike x y := by
  obtain ⟨z, hz, hAlike⟩ := h.under hx
  rwa [hy.unique h.right.entries hz]

theorem length_entries {a b : Value} (h : Alike a b) :
    a.entries.length = b.entries.length := by
  have hSame := h.untagged.same
  rw [Value.entries]
  split
  · rename_i entries hMap
    rw [hMap, same_map_iff] at hSame
    obtain ⟨others, hOthers, hLength, -⟩ := hSame
    rw [hLength, Value.entries, hOthers]
  · rename_i hMap
    rw [Value.entries]
    split
    · rename_i others hOthers
      rw [hOthers] at hSame
      cases hUntagged : a.untagged with
      | map entries => exact absurd hUntagged (hMap entries)
      | _ => simp [hUntagged, Value.same] at hSame
    · rfl

end Alike

/-- The texts of the keys of a mapping. -/
def texts (entries : List (Value × Value)) : List String := entries.filterMap (·.1.text?)

theorem mem_texts_iff {entries : List (Value × Value)} {name : String} :
    name ∈ texts entries ↔ ∃ value, IsUnder entries name value := by
  simp only [texts, List.mem_filterMap, IsUnder, Prod.exists]
  exact ⟨fun ⟨key, value, h⟩ => ⟨value, key, h⟩, fun ⟨value, key, h⟩ => ⟨key, value, h⟩⟩

theorem texts_nodup {entries : List (Value × Value)} (h : Yaml.UniqueTexts entries) :
    (texts entries).Nodup := by
  refine List.Pairwise.filterMap _ (fun first second hDiffer n hFirst m hSecond hSame => ?_) h
  exact hDiffer n hFirst (hSame ▸ hSecond)

/-- Two lists of entries with the same texts, under each of which they hold values that are alike. -/
structure Corresponds (entries others : List (Value × Value)) : Prop where
  left : Yaml.UniqueTexts entries
  right : Yaml.UniqueTexts others
  texts : (texts entries).Perm (texts others)
  alike : ∀ name x y, IsUnder entries name x → IsUnder others name y → Alike x y

/-- Mappings that are alike have entries that correspond, if all keys are texts. -/
theorem Alike.corresponds {a b : Value} (h : Alike a b)
    (hTexts : ∀ entry ∈ a.entries, entry.1.text?.isSome) : Corresponds a.entries b.entries := by
  have hLeft := texts_nodup h.left.entries
  have hSubset : Value.texts a.entries ⊆ Value.texts b.entries := by
    intro name hName
    obtain ⟨x, hx⟩ := mem_texts_iff.mp hName
    obtain ⟨y, hy, -⟩ := h.under hx
    exact mem_texts_iff.mpr ⟨y, hy⟩
  have hLength : (Value.texts b.entries).length ≤ (Value.texts a.entries).length :=
    calc (Value.texts b.entries).length
      _ ≤ b.entries.length := List.length_filterMap_le _ _
      _ = a.entries.length := h.length_entries.symm
      _ = (Value.texts a.entries).length := by
        rw [Value.texts, List.length_filterMap_eq_countP, eq_comm, List.countP_eq_length]
        exact hTexts
  exact ⟨h.left.entries, h.right.entries,
    (List.Nodup.subperm hLeft hSubset).perm_of_length_le hLength,
    fun name x y => h.of_under⟩

theorem IsUnder.perm {entries others : List (Value × Value)} (hPerm : entries.Perm others)
    {name : String} {value : Value} (h : IsUnder entries name value) :
    IsUnder others name value := by
  obtain ⟨key, hKey, hText⟩ := h
  exact ⟨key, hPerm.mem_iff.mp hKey, hText⟩

theorem uniqueTexts_perm {entries others : List (Value × Value)} (hPerm : entries.Perm others)
    (h : Yaml.UniqueTexts entries) : Yaml.UniqueTexts others :=
  (hPerm.pairwise_iff fun hDiffer name hFirst hSecond => hDiffer name hSecond hFirst).mp h

/-- Entries that correspond still do after one with the same text is taken out of each. -/
theorem Corresponds.remove {entries others : List (Value × Value)} (h : Corresponds entries others)
    (name : String) {a b : Value × Value} {rest remaining : List (Value × Value)}
    (hEntries : entries.Perm (a :: rest)) (hOthers : others.Perm (b :: remaining))
    (ha : a.1.text? = some name) (hb : b.1.text? = some name) : Corresponds rest remaining where
  left := (List.pairwise_cons.mp (uniqueTexts_perm hEntries h.left)).2
  right := (List.pairwise_cons.mp (uniqueTexts_perm hOthers h.right)).2
  texts := by
    have hTexts := (hEntries.filterMap _).symm.trans (h.texts.trans (hOthers.filterMap _))
    simp only [List.filterMap_cons, ha, hb] at hTexts
    exact hTexts.cons_inv
  alike := fun name x y hx hy =>
    h.alike name x y (.perm hEntries.symm (isUnder_cons.mpr (.inr hx)))
      (.perm hOthers.symm (isUnder_cons.mpr (.inr hy)))

end Value

end EntityGen.Yaml
