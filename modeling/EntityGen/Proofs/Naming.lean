import EntityGen.Proofs.Text.Case
import EntityGen.Naming
import EntityGen.Schema.Check

/-! Stems of model names. A name that a schema may have gives a stem that is a single segment: it has
no slash and no point at its start. -/

namespace EntityGen.Naming

open Text (IsLow)

theorem of_mem_hyphenate {chars : List Char} {c : Char} (h : c ∈ hyphenate chars) :
    c ∈ chars ∨ c = '-' := by
  induction chars using hyphenate.induct with
  | case1 => cases h
  | case2 d => exact .inl h
  | case3 d e rest hBoundary ih =>
    rw [hyphenate, if_pos hBoundary, List.mem_cons, List.mem_cons, List.mem_cons] at h
    rcases h with rfl | rfl | rfl | h
    · exact .inl List.mem_cons_self
    · exact .inr rfl
    · exact .inl (List.mem_cons_of_mem _ List.mem_cons_self)
    · exact (ih h).imp_left fun hMem => List.mem_cons_of_mem _ (List.mem_cons_of_mem _ hMem)
  | case4 d e rest hBoundary ih =>
    rw [hyphenate, if_neg hBoundary, List.mem_cons] at h
    rcases h with rfl | h
    · exact .inl List.mem_cons_self
    · exact (ih h).imp_left (List.mem_cons_of_mem _)

theorem mem_hyphenate {chars : List Char} {c : Char} (h : c ∈ chars) : c ∈ hyphenate chars := by
  induction chars using hyphenate.induct with
  | case1 => cases h
  | case2 d => exact h
  | case3 d e rest hBoundary ih =>
    rw [hyphenate, if_pos hBoundary]
    simp only [List.mem_cons] at h ⊢
    exact h.imp_right fun h => .inr (h.imp_right ih)
  | case4 d e rest hBoundary ih =>
    rw [hyphenate, if_neg hBoundary]
    rcases List.mem_cons.mp h with rfl | h
    · exact List.mem_cons_self
    · exact List.mem_cons_of_mem _ (ih h)

theorem hyphenate_head? (chars : List Char) : (hyphenate chars).head? = chars.head? := by
  induction chars using hyphenate.induct with
  | case1 => rfl
  | case2 d => rfl
  | case3 d e rest hBoundary ih => simp [hyphenate, hBoundary]
  | case4 d e rest hBoundary ih => simp [hyphenate, hBoundary]

variable {name : String}

theorem of_mem_stem {c : Char} (h : c ∈ (stem name).toList) (hLow : IsLow c) (hHyphen : c ≠ '-') :
    c ∈ name.toList := by
  rw [stem, String.toList_ofList] at h
  exact (of_mem_hyphenate (Text.of_mem_lower h hLow)).resolve_right hHyphen

/-- The characters before the capital letters, apart from hyphens, are those of the name. -/
theorem mem_stem_iff {c : Char} (h : c.toNat < 0x41) (hHyphen : c ≠ '-') :
    c ∈ (stem name).toList ↔ c ∈ name.toList := by
  refine ⟨fun hMem => of_mem_stem hMem (Nat.lt_trans h (by decide)) hHyphen, fun hMem => ?_⟩
  rw [stem, String.toList_ofList]
  exact Text.mem_lower (mem_hyphenate hMem) h

theorem stem_head? {c : Char} (h : (stem name).toList.head? = some c) (hLow : IsLow c) :
    name.toList.head? = some c := by
  rw [stem, String.toList_ofList] at h
  rw [← hyphenate_head?]
  exact Text.lower_head? h hLow

theorem stem_ne_empty (h : name ≠ "") : stem name ≠ "" := by
  have hChars : hyphenate name.toList ≠ [] := by
    intro hNil
    have hHead := hyphenate_head? name.toList
    rw [hNil] at hHead
    exact h (by simpa using hHead.symm)
  simpa [stem] using Text.lower_ne_nil hChars

theorem of_mem_capitalized {c : Char} (h : c ∈ (capitalized name).toList) (hLow : c.toNat < 0x41) :
    c ∈ name.toList := by
  rw [capitalized, String.toList_ofList] at h
  cases hName : name.toList with
  | nil => simp [hName, mapInitial] at h
  | cons first rest =>
    rw [hName, mapInitial, List.mem_append] at h
    rcases h with hFirst | hRest
    · exact Text.of_mem_upperChar hFirst hLow ▸ List.mem_cons_self
    · exact List.mem_cons_of_mem _ hRest

theorem capitalized_noSlash (h : '/' ∉ name.toList) : '/' ∉ (capitalized name).toList :=
  fun hMem => h (of_mem_capitalized hMem (by decide))

theorem capitalized_ne_empty (h : name ≠ "") : capitalized name ≠ "" := by
  cases hName : name.toList with
  | nil => exact absurd (String.toList_inj.mp hName) h
  | cons first rest => simp [capitalized, hName, mapInitial, Text.upperChar_ne_nil]

section ModelName

variable (h : isModelName name = true)
include h

theorem isModelName_ne_empty : name ≠ "" := by
  rintro rfl
  simp [isModelName, Text.allBlank] at h

theorem isModelName_noSlash : '/' ∉ name.toList := by
  intro hMem
  simp [isModelName, hMem] at h

theorem isModelName_noBackslash : '\\' ∉ name.toList := by
  intro hMem
  simp [isModelName, hMem] at h

/-- The stem of a model name has no slash. -/
theorem stem_noSlash : '/' ∉ (stem name).toList := by
  intro hMem
  exact isModelName_noSlash h (of_mem_stem hMem (by unfold IsLow; decide) (by decide))

/-- The stem of a model name does not begin with a point. -/
theorem stem_noPoint : (stem name).toList.head? ≠ some '.' := by
  intro hHead
  have hName := stem_head? hHead (by unfold IsLow; decide)
  simp [isModelName, hName] at h

theorem stem_ne_point : stem name ≠ "." ∧ stem name ≠ ".." := by
  constructor <;>
  · intro hStem
    have hHead := stem_noPoint h
    rw [hStem] at hHead
    exact hHead rfl

end ModelName

end EntityGen.Naming
