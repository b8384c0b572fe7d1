import EntityGen.Proofs.FirstUse
import EntityGen.Proofs.Yaml.Same

/-! The names of changed entries. They stand in document order, each once, and an entry that changes
on the way from one state to another changes on the way to a state between them, or from there. -/

namespace EntityGen

open Yaml (Value)

/-- The entries that an earlier state has, if there is one. -/
def earlierEntries (previous : Option Value) : List (Value × Value) :=
  (previous.map Value.entries).getD []

theorem isKept_iff {entries : List (Value × Value)} {entry : Value × Value} :
    isKept entries entry = true ↔
      ∃ old, Value.find? entry.1 entries = some old ∧ old.same entry.2 = true := by
  rw [isKept]
  split <;> simp_all

variable {previous : Option Value} {current : Value} {name : String}

theorem mem_changedKeys :
    name ∈ changedKeys previous current ↔ ∃ key value, (key, value) ∈ current.entries ∧
      key.text? = some name ∧ isKept (earlierEntries previous) (key, value) = false := by
  simp only [changedKeys, changedEntries, List.mem_eraseDups, List.mem_filterMap, List.mem_filter,
    Bool.not_eq_true', Prod.exists]
  constructor
  · rintro ⟨key, value, ⟨hMem, hKept⟩, hText⟩
    exact ⟨key, value, hMem, hText, hKept⟩
  · rintro ⟨key, value, hMem, hText, hKept⟩
    exact ⟨key, value, ⟨hMem, hKept⟩, hText⟩

theorem changedKeys_nodup (previous : Option Value) (current : Value) :
    (changedKeys previous current).Nodup :=
  eraseDups_nodup _

/-- Changed names stand in document order. -/
theorem changedKeys_sublist (previous : Option Value) (current : Value) :
    (changedKeys previous current).Sublist (Yaml.Value.texts current.entries) :=
  (eraseDups_sublist _).trans (List.filter_sublist.filterMap _)

/-- An entry that a state between has, and that an earlier state has not, changed before. -/
theorem mem_changedKeys_of_kept {between key value : Value} (hText : key.text? = some name)
    (hChanged : isKept (earlierEntries previous) (key, value) = false)
    (hKept : isKept between.entries (key, value) = true) :
    name ∈ changedKeys previous between := by
  obtain ⟨found, hFound, hSame⟩ := isKept_iff.mp hKept
  obtain ⟨⟨other, _⟩, hFind, rfl⟩ := Option.map_eq_some_iff.mp hFound
  have hOther : other = key :=
    (Yaml.Value.same_iff_eq_of_text hText).mp (by simpa using List.find?_some hFind)
  subst hOther
  refine mem_changedKeys.mpr ⟨other, _, List.mem_of_find?_eq_some hFind, hText, ?_⟩
  rw [Bool.eq_false_iff]
  intro hEarlier
  obtain ⟨old, hOld, hOldSame⟩ := isKept_iff.mp hEarlier
  have hStill : isKept (earlierEntries previous) (other, value) = true :=
    isKept_iff.mpr ⟨old, hOld, Yaml.Value.same_trans hOldSame hSame⟩
  rw [hStill] at hChanged
  cases hChanged

/-- A document in which no key stands twice has not changed from itself. -/
theorem changedKeys_self {value : Value} (hDistinct : value.Distinct) :
    changedKeys (some value) value = [] := by
  have hKeys := Value.Everywhere.entries .nil hDistinct
  refine List.eq_nil_iff_forall_not_mem.mpr fun name hName => ?_
  obtain ⟨key, content, hMem, hText, hChanged⟩ := mem_changedKeys.mp hName
  have hFind : value.entries.find? (fun entry => entry.1.same key) = some (key, content) := by
    obtain ⟨earlier, later, hSplit⟩ := List.append_of_mem hMem
    rw [hSplit, List.pairwise_append] at hKeys
    refine List.find?_eq_some_iff_append.mpr
      ⟨Value.same_refl key, earlier, later, hSplit, fun entry hEntry => ?_⟩
    rw [hKeys.2.2 entry hEntry _ List.mem_cons_self]
    rfl
  have hKept : isKept (earlierEntries (some value)) (key, content) = true :=
    isKept_iff.mpr ⟨content, Option.map_eq_some_iff.mpr ⟨_, hFind, rfl⟩, Value.same_refl content⟩
  rw [hKept] at hChanged
  cases hChanged

end EntityGen
