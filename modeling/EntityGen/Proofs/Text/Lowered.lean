import EntityGen.Proofs.Text.Case
import Mathlib

/-! A text in lower case is its own lower-case form, and it has no capital letter. No run of the table
maps what a run gives, and a sigma in lower case is a small one, whose place in its word does not
matter any more. -/

namespace EntityGen.Text

/-- Whether what a run gives lies behind another run, before it, or between the code points that the
other one maps. Each run is compared with each, and so the comparisons are of the kind that is
computed fast. -/
def misses (run other : Nat × Nat × Nat × Nat) : Bool :=
  other.2.1.blt run.2.2.2 || (run.2.2.2 + (run.2.1 - run.1)).blt other.1 ||
    ((run.1 == run.2.1 || run.2.2.1 % 2 == 0) && other.2.2.1 % 2 == 0 &&
      (run.2.2.2 + other.1) % 2 == 1)

theorem lowerRuns_misses : (lowerRuns.all fun run => lowerRuns.all (misses run)) = true := by
  decide +kernel

theorem not_maps_of_misses {run other : Nat × Nat × Nat × Nat} (h : misses run other = true)
    {code : Nat} (hMaps : Maps run code) : ¬Maps other (run.2.2.2 + (code - run.1)) := by
  obtain ⟨hFirst, hLast, hStep⟩ := hMaps
  rintro ⟨hFrom, hTo, hOther⟩
  simp only [misses, Bool.or_eq_true, Bool.and_eq_true, Nat.blt_eq, beq_iff_eq] at h
  rcases h with (hBehind | hBefore) | ⟨⟨hRun, hEven⟩, hOdd⟩
  · omega
  · omega
  · have hShift : 2 ∣ code - run.1 := by
      rcases hRun with hOne | hRun
      · rw [show code - run.1 = 0 by omega]
        exact Nat.dvd_zero 2
      · exact (Nat.dvd_of_mod_eq_zero hRun).trans hStep
    have hPlace := (Nat.dvd_of_mod_eq_zero hEven).trans hOther
    omega

/-- What the table gives it does not map. -/
theorem runImage?_again {code image : Nat} (h : runImage? lowerRuns code = some image) :
    runImage? lowerRuns image = none := by
  obtain ⟨run, hRun, hMaps, rfl⟩ := exists_maps_of_runImage? h
  have hMisses := List.all_eq_true.mp lowerRuns_misses run hRun
  exact runImage?_eq_none fun other hOther =>
    not_maps_of_misses (List.all_eq_true.mp hMisses other hOther) hMaps

/-- The table does not give the dotted capital, which has a form in lower case outside the table. -/
theorem runImage?_ne_dotted {code image : Nat} (h : runImage? lowerRuns code = some image) :
    image ≠ 'İ'.toNat := by
  have hApart : ∀ run ∈ lowerRuns,
      'İ'.toNat < run.2.2.2 ∨ run.2.2.2 + (run.2.1 - run.1) < 'İ'.toNat := by decide +kernel
  obtain ⟨run, hRun, ⟨-, hLast, -⟩, rfl⟩ := exists_maps_of_runImage? h
  have hRun := hApart run hRun
  omega

/-! ### Characters in lower case -/

/-- Whether a character is its own lower-case form wherever it stands. -/
def IsLowered (c : Char) : Prop := c ≠ 'Σ' ∧ lowerChar c = [c]

theorem toNat_le_of_isUpper {c : Char} (h : c.isUpper) : c.toNat ≤ 'Z'.toNat := by
  simp only [Char.isUpper, decide_eq_true_eq] at h
  exact h.2

theorem toLower_isAscii {c : Char} (h : c.toNat < 128) : c.toLower.toNat < 128 := by
  by_cases hUpper : c.isUpper
  · have hLast : c.toNat ≤ 90 := toNat_le_of_isUpper hUpper
    rw [Char.toLower_eq_of_isUpper hUpper, toNat_ofNat (.inl (by omega))]
    omega
  · rwa [Char.toLower_eq_of_not_isUpper hUpper]

theorem isLowered_of_ascii {c : Char} (hAscii : c.toNat < 128) (hUpper : ¬c.isUpper) :
    IsLowered c := by
  constructor
  · intro hSigma
    subst hSigma
    exact absurd hAscii (by decide)
  · rw [lowerChar, if_pos hAscii, Char.toLower_eq_of_not_isUpper hUpper]

theorem isLowered_of_unmapped {c : Char} (hAscii : ¬c.toNat < 128) (hDotted : c ≠ 'İ')
    (hNone : runImage? lowerRuns c.toNat = none) : IsLowered c := by
  constructor
  · intro hSigma
    subst hSigma
    exact absurd hNone (by decide)
  · rw [lowerChar, if_neg hAscii, if_neg (by simpa using hDotted), hNone]

/-- What the table gives for a character is in lower case. -/
theorem isLowered_of_runImage? {code image : Nat} (h : runImage? lowerRuns code = some image) :
    IsLowered (Char.ofNat image) := by
  obtain ⟨hSmall, hValid⟩ := runImage?_isValidChar lowerRuns_isRun h
  have hCode : (Char.ofNat image).toNat = image := toNat_ofNat hValid
  -- a letter of the alphabet is the form of the Kelvin sign
  by_cases hAscii : image < 128
  · refine isLowered_of_ascii (by omega) fun hUpper => ?_
    have hLast := toNat_le_of_isUpper hUpper
    rw [hCode] at hLast
    exact absurd (hSmall.trans hLast) (by decide)
  · refine isLowered_of_unmapped (by omega) (fun hDotted => ?_) (hCode.symm ▸ runImage?_again h)
    exact runImage?_ne_dotted h (hDotted ▸ hCode.symm)

theorem isLowered_of_mem_lowerChar {c d : Char} (h : d ∈ lowerChar c) : IsLowered d := by
  unfold lowerChar at h
  split at h
  · rename_i hAscii
    obtain rfl := List.mem_singleton.mp h
    exact isLowered_of_ascii (toLower_isAscii hAscii) (by simp)
  · rename_i hAscii
    split at h
    · simp only [List.mem_cons, List.not_mem_nil, or_false] at h
      rcases h with rfl | rfl
      · exact ⟨by decide, by decide⟩
      · exact ⟨by decide, by decide⟩
    · rename_i hDotted
      split at h
      · rename_i image hImage
        obtain rfl := List.mem_singleton.mp h
        exact isLowered_of_runImage? hImage
      · rename_i hNone
        obtain rfl := List.mem_singleton.mp h
        exact isLowered_of_unmapped hAscii (by simpa using hDotted) hNone

theorem isLowered_of_mem_lowerHere {before rest : List Char} {c d : Char}
    (h : d ∈ lowerHere before c rest) : IsLowered d := by
  unfold lowerHere at h
  split at h
  · obtain rfl := List.mem_singleton.mp h
    split
    · exact ⟨by decide, by decide⟩
    · exact ⟨by decide, by decide⟩
  · exact isLowered_of_mem_lowerChar h

theorem IsLowered.lowerHere {c : Char} (h : IsLowered c) (before rest : List Char) :
    lowerHere before c rest = [c] := by
  rw [Text.lowerHere, if_neg (by simpa using h.1), h.2]

theorem IsLowered.not_isUpper {c : Char} (h : IsLowered c) : ¬c.isUpper := by
  intro hUpper
  have hAscii : c.toNat < 128 := (toNat_le_of_isUpper hUpper).trans_lt (by decide)
  have hSame : c.toLower = c := by
    have hForm := h.2
    rw [lowerChar, if_pos hAscii] at hForm
    exact List.singleton_inj.mp hForm
  rw [← hSame, Char.isUpper_toLower_eq_false] at hUpper
  cases hUpper

/-! ### Texts in lower case -/

theorem isLowered_of_mem_lowerAfter {before text : List Char} {d : Char}
    (h : d ∈ lowerAfter before text) : IsLowered d := by
  induction text generalizing before with
  | nil => cases h
  | cons c rest ih =>
    rw [lowerAfter_cons, List.mem_append] at h
    exact h.elim isLowered_of_mem_lowerHere ih

/-- Every character of a text in lower case is in lower case. -/
theorem isLowered_of_mem_lower {text : List Char} {d : Char} (h : d ∈ lower text) : IsLowered d :=
  isLowered_of_mem_lowerAfter h

theorem lowerAfter_eq_self {before text : List Char} (h : ∀ c ∈ text, IsLowered c) :
    lowerAfter before text = text := by
  induction text generalizing before with
  | nil => rfl
  | cons c rest ih =>
    rw [lowerAfter_cons, (h c List.mem_cons_self).lowerHere,
      ih fun d hd => h d (List.mem_cons_of_mem _ hd), List.singleton_append]

theorem lower_lower (text : List Char) : lower (lower text) = lower text :=
  lowerAfter_eq_self fun _ => isLowered_of_mem_lower

end EntityGen.Text
