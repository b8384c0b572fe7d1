import EntityGen.Shape
import EntityGen.Proofs.Result

/-! Tables. A table has each key once, in the order in which the keys are first met; of several
values under a key the last one counts. -/

namespace EntityGen.Shape

open Yaml (Value)

variable {α : Type} {key : String} {value : α}

theorem map_fst_put (key : String) (value : α) (table : List (String × α)) :
    (put key value table).map (·.1) =
      if key ∈ table.map (·.1) then table.map (·.1) else table.map (·.1) ++ [key] := by
  induction table with
  | nil => simp [put]
  | cons entry rest ih =>
    obtain ⟨k, v⟩ := entry
    by_cases hKey : k = key
    · simp [put, hKey]
    · rw [put, if_neg (by simpa using hKey), List.map_cons, ih]
      simp only [List.map_cons, List.mem_cons, Ne.symm hKey, false_or]
      split <;> simp

theorem put_of_notMem {table : List (String × α)} (h : key ∉ table.map (·.1)) :
    put key value table = table ++ [(key, value)] := by
  induction table with
  | nil => rfl
  | cons entry rest ih =>
    obtain ⟨k, v⟩ := entry
    rw [List.map_cons, List.mem_cons, not_or] at h
    rw [put, if_neg (by simpa using Ne.symm h.1), ih h.2, List.cons_append]

theorem put_nodup {table : List (String × α)} (h : (table.map (·.1)).Nodup) :
    ((put key value table).map (·.1)).Nodup := by
  rw [map_fst_put]
  split
  · exact h
  · rename_i hKey
    rw [List.nodup_append]
    refine ⟨h, by simp, fun other hOther last hLast hSame => hKey ?_⟩
    rw [← List.mem_singleton.mp hLast, ← hSame]
    exact hOther

theorem mem_put {table : List (String × α)} {entry : String × α} (h : entry ∈ put key value table) :
    entry = (key, value) ∨ entry ∈ table := by
  induction table with
  | nil => exact .inl (List.mem_singleton.mp h)
  | cons first rest ih =>
    obtain ⟨k, v⟩ := first
    rw [put] at h
    split at h
    · rename_i hKey
      obtain rfl : k = key := by simpa using hKey
      exact (List.mem_cons.mp h).imp_right (List.mem_cons_of_mem _)
    · rcases List.mem_cons.mp h with rfl | hRest
      · exact .inr List.mem_cons_self
      · exact (ih hRest).imp_right (List.mem_cons_of_mem _)

section Table

variable {read : Value → Result α} {document : Value} {entries : List (String × α)}
variable (h : table read document = .ok entries)
include h

/-- What holds of the empty table, and still holds when what is read of an entry is put into a table,
holds of every table. -/
theorem table_induction (P : List (String × α) → Prop) (empty : P [])
    (putting : ∀ key value done written found, entriesAs "a map" document = .ok written →
      found ∈ written → read found.2 = .ok value → P done → P (put key value done)) :
    P entries := by
  rw [table] at h
  obtain ⟨written, hWritten, hFold⟩ := Result.bind_eq_ok.mp h
  have hStep (rest : List (Value × Value)) (done entries : List (String × α))
      (hRest : ∀ entry ∈ rest, entry ∈ written) (hDone : P done)
      (h : rest.foldlM (fun done entry => do
        let key ← text entry.1
        return put key (← read entry.2) done) done = .ok entries) : P entries := by
    induction rest generalizing done with
    | nil =>
      obtain rfl : done = entries := Except.ok.inj h
      exact hDone
    | cons entry rest ih =>
      rw [List.foldlM_cons] at h
      rw [List.forall_mem_cons] at hRest
      obtain ⟨next, hNext, hMore⟩ := Result.bind_eq_ok.mp h
      obtain ⟨key, -, hPut⟩ := Result.bind_eq_ok.mp hNext
      obtain ⟨value, hRead, hSame⟩ := Result.bind_eq_ok.mp hPut
      obtain rfl : put key value done = next := Except.ok.inj hSame
      exact ih _ hRest.2 (putting key value done written entry hWritten hRest.1 hRead hDone) hMore
  exact hStep written [] entries (fun _ => id) empty hFold

/-- A table has each key once. -/
theorem table_nodup : (entries.map (·.1)).Nodup :=
  table_induction h (fun entries => (entries.map (·.1)).Nodup) List.nodup_nil
    fun _ _ _ _ _ _ _ _ => put_nodup

/-- The values of a table were read of the entries of the document. -/
theorem exists_read_of_mem_table {entry : String × α} (hEntry : entry ∈ entries) :
    ∃ written found, entriesAs "a map" document = .ok written ∧ found ∈ written ∧
      read found.2 = .ok entry.2 := by
  refine table_induction h (fun entries => ∀ entry ∈ entries, ∃ written found,
    entriesAs "a map" document = .ok written ∧ found ∈ written ∧ read found.2 = .ok entry.2)
    (by simp) (fun key value done written found hWritten hFound hRead hDone entry hEntry => ?_)
    entry hEntry
  rcases mem_put hEntry with rfl | hOld
  · exact ⟨written, found, hWritten, hFound, hRead⟩
  · exact hDone entry hOld

end Table

end EntityGen.Shape
