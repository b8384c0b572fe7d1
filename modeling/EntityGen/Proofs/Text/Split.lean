import EntityGen.Text.Split

/-! Splitting at a separator: the parts of two texts with a separator between them are the parts of
the one followed by those of the other, and joining the parts of a text gives the text again. -/

namespace EntityGen.Text

variable {α : Type} [BEq α]

theorem split_ne_nil (separator : α) (items : List α) : split separator items ≠ [] := by
  cases items with
  | nil => simp [split]
  | cons c rest =>
    rw [split]
    split
    · simp
    · split <;> simp

theorem split_eq_splitOn (separator : α) (items : List α) :
    split separator items = items.splitOn separator := by
  induction items with
  | nil => rfl
  | cons c rest ih =>
    rw [split, List.splitOn_cons_eq_if_modifyHead, ← ih]
    rcases hRest : split separator rest with _ | ⟨first, others⟩
    · exact absurd hRest (split_ne_nil separator rest)
    · rfl

variable [LawfulBEq α]

theorem split_append (separator : α) (left right : List α) :
    split separator (left ++ separator :: right) =
      split separator left ++ split separator right := by
  simp only [split_eq_splitOn, List.splitOn_append_cons_self]

theorem split_of_notMem {separator : α} {items : List α} (h : separator ∉ items) :
    split separator items = [items] := by
  rw [split_eq_splitOn, List.splitOn_eq_singleton h]

theorem notMem_of_mem_split {separator : α} {items part : List α}
    (h : part ∈ split separator items) : separator ∉ part := by
  induction items generalizing part with
  | nil =>
    obtain rfl : part = [] := by simpa [split] using h
    simp
  | cons c rest ih =>
    rw [split] at h
    split at h
    · rcases List.mem_cons.mp h with rfl | hPart
      · simp
      · exact ih hPart
    · rename_i hSeparator
      rcases hRest : split separator rest with _ | ⟨first, others⟩
      · exact absurd hRest (split_ne_nil separator rest)
      · rw [hRest, List.mem_cons] at h
        rcases h with rfl | hPart
        · rw [List.mem_cons, not_or]
          exact ⟨fun hSame => hSeparator (by simp [hSame]), ih (hRest ▸ List.mem_cons_self)⟩
        · exact ih (hRest ▸ List.mem_cons_of_mem _ hPart)

/-- Parts with separators between them are the text again. -/
theorem intercalate_parts (separator : Char) (text : String) :
    (String.singleton separator).intercalate (parts separator text) = text := by
  rw [← String.toList_inj, String.toList_intercalate, parts, List.map_map, String.toList_singleton,
    split_eq_splitOn]
  simp [Function.comp_def]

theorem parts_append (separator : Char) (left right : String) :
    parts separator (left ++ String.singleton separator ++ right) =
      parts separator left ++ parts separator right := by
  rw [parts, String.toList_append, String.toList_append, String.toList_singleton,
    List.append_assoc, List.singleton_append, split_append, List.map_append, parts, parts]

theorem parts_of_notMem {separator : Char} {text : String} (h : separator ∉ text.toList) :
    parts separator text = [text] := by
  rw [parts, split_of_notMem h, List.map_singleton, String.ofList_toList]

theorem notMem_of_mem_parts {separator : Char} {text part : String}
    (h : part ∈ parts separator text) : separator ∉ part.toList := by
  obtain ⟨chars, hChars, rfl⟩ := List.mem_map.mp h
  simpa using notMem_of_mem_split hChars

end EntityGen.Text
