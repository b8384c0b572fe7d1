import EntityGen.Text.Case

/-! Lower case and the characters before the small letters: each of them comes from itself only, so
that a text in lower case has the points, hyphens and slashes of the text that it was made from. Upper
case likewise keeps the characters before the capital letters. -/

namespace EntityGen.Text

/-- Whether a character stands before the small letters. -/
def IsLow (c : Char) : Prop := c.toNat < 0x61

/-- A run whose images are characters, none of them before the small letters. -/
def IsRun (run : Nat × Nat × Nat × Nat) : Prop :=
  0x61 ≤ run.2.2.2 ∧ (run.2.2.2 + (run.2.1 - run.1) < 0xD800 ∨ 0xDFFF < run.2.2.2) ∧
    run.2.2.2 + (run.2.1 - run.1) < 0x110000

instance (run : Nat × Nat × Nat × Nat) : Decidable (IsRun run) :=
  inferInstanceAs (Decidable (_ ∧ _ ∧ _))

theorem lowerRuns_isRun : ∀ run ∈ lowerRuns, IsRun run := by decide +kernel

/-- Whether a run maps a code point. -/
def Maps (run : Nat × Nat × Nat × Nat) (code : Nat) : Prop :=
  run.1 ≤ code ∧ code ≤ run.2.1 ∧ run.2.2.1 ∣ code - run.1

theorem exists_maps_of_runImage? {runs : List (Nat × Nat × Nat × Nat)} {code image : Nat}
    (h : runImage? runs code = some image) :
    ∃ run ∈ runs, Maps run code ∧ image = run.2.2.2 + (code - run.1) := by
  induction runs with
  | nil => cases h
  | cons run rest ih =>
    obtain ⟨first, last, step, start⟩ := run
    rw [runImage?] at h
    split at h
    · rename_i hIn
      simp only [Bool.and_eq_true, decide_eq_true_eq, beq_iff_eq] at hIn
      obtain ⟨⟨hFirst, hLast⟩, hStep⟩ := hIn
      exact ⟨_, List.mem_cons_self, ⟨hFirst, hLast, Nat.dvd_of_mod_eq_zero hStep⟩,
        (Option.some.inj h).symm⟩
    · obtain ⟨found, hFound, hMaps, hImage⟩ := ih h
      exact ⟨found, List.mem_cons_of_mem _ hFound, hMaps, hImage⟩

theorem runImage?_eq_none {runs : List (Nat × Nat × Nat × Nat)} {code : Nat}
    (h : ∀ run ∈ runs, ¬Maps run code) : runImage? runs code = none := by
  induction runs with
  | nil => rfl
  | cons run rest ih =>
    obtain ⟨first, last, step, start⟩ := run
    rw [runImage?, if_neg, ih fun other hOther => h other (List.mem_cons_of_mem _ hOther)]
    intro hIn
    simp only [Bool.and_eq_true, decide_eq_true_eq, beq_iff_eq] at hIn
    obtain ⟨⟨hFirst, hLast⟩, hStep⟩ := hIn
    exact h _ List.mem_cons_self ⟨hFirst, hLast, Nat.dvd_of_mod_eq_zero hStep⟩

theorem runImage?_isValidChar {runs : List (Nat × Nat × Nat × Nat)} (hRuns : ∀ run ∈ runs, IsRun run)
    {code image : Nat} (h : runImage? runs code = some image) :
    0x61 ≤ image ∧ image.isValidChar := by
  obtain ⟨run, hRun, ⟨-, hLast, -⟩, rfl⟩ := exists_maps_of_runImage? h
  obtain ⟨hStart, hBlock, hEnd⟩ := hRuns run hRun
  simp only [Nat.isValidChar]
  omega

theorem toNat_ofNat {n : Nat} (h : n.isValidChar) : (Char.ofNat n).toNat = n := by
  rw [Char.ofNat, dif_pos h]
  rfl

theorem toLower_of_isLow {c : Char} (h : IsLow c.toLower) : c.toLower = c := by
  by_cases hUpper : c.val ≥ 'A'.val ∧ c.val ≤ 'Z'.val
  · have hLower : c.toLower.val = c.val + ('a'.val - 'A'.val) :=
      congrArg Char.val (dif_pos hUpper)
    obtain ⟨hFirst, hLast⟩ := hUpper
    have hFirst : 65 ≤ c.val.toNat := hFirst
    have hLast : c.val.toNat ≤ 90 := hLast
    have hSum : c.toLower.val.toNat < 0x61 := h
    rw [hLower] at hSum
    rw [UInt32.toNat_add, show ('a'.val - 'A'.val).toNat = 32 from rfl] at hSum
    omega
  · exact dif_neg hUpper

/-- A character before the small letters is the lower-case form of itself only. -/
theorem of_mem_lowerChar {c d : Char} (h : d ∈ lowerChar c) (hLow : IsLow d) : d = c := by
  rw [lowerChar] at h
  split at h
  · obtain rfl := List.mem_singleton.mp h
    exact toLower_of_isLow hLow
  · split at h
    · simp only [List.mem_cons, List.not_mem_nil, or_false] at h
      rcases h with rfl | rfl
      · exact absurd hLow (by unfold IsLow; decide)
      · exact absurd hLow (by unfold IsLow; decide)
    · split at h
      · rename_i image hImage
        obtain rfl := List.mem_singleton.mp h
        obtain ⟨hLarge, hValid⟩ := runImage?_isValidChar lowerRuns_isRun hImage
        rw [IsLow, toNat_ofNat hValid] at hLow
        omega
      · exact List.mem_singleton.mp h

theorem lowerChar_ne_nil (c : Char) : lowerChar c ≠ [] := by
  rw [lowerChar]
  split
  · simp
  · split
    · simp
    · split <;> simp

/-- The lower-case form of a character that stands after some and before others. -/
def lowerHere (before : List Char) (c : Char) (rest : List Char) : List Char :=
  if c == 'Σ' then [if meetsCased before && !meetsCased rest then 'ς' else 'σ'] else lowerChar c

theorem lowerAfter_cons (before : List Char) (c : Char) (rest : List Char) :
    lowerAfter before (c :: rest) = lowerHere before c rest ++ lowerAfter (c :: before) rest := rfl

theorem of_mem_lowerHere {before rest : List Char} {c d : Char} (h : d ∈ lowerHere before c rest)
    (hLow : IsLow d) : d = c := by
  rw [lowerHere] at h
  split at h
  · exfalso
    obtain rfl := List.mem_singleton.mp h
    split at hLow <;> exact absurd hLow (by unfold IsLow; decide)
  · exact of_mem_lowerChar h hLow

theorem lowerHere_ne_nil (before : List Char) (c : Char) (rest : List Char) :
    lowerHere before c rest ≠ [] := by
  rw [lowerHere]
  split
  · simp
  · exact lowerChar_ne_nil c

/-- The characters before the small letters in a text in lower case are those of the text. -/
theorem of_mem_lowerAfter {before text : List Char} {d : Char} (h : d ∈ lowerAfter before text)
    (hLow : IsLow d) : d ∈ text := by
  induction text generalizing before with
  | nil => cases h
  | cons c rest ih =>
    rw [lowerAfter_cons, List.mem_append] at h
    rcases h with hHere | hRest
    · exact of_mem_lowerHere hHere hLow ▸ List.mem_cons_self
    · exact List.mem_cons_of_mem _ (ih hRest)

theorem of_mem_lower {text : List Char} {d : Char} (h : d ∈ lower text) (hLow : IsLow d) :
    d ∈ text :=
  of_mem_lowerAfter h hLow

theorem lower_head? {text : List Char} {d : Char} (h : (lower text).head? = some d)
    (hLow : IsLow d) : text.head? = some d := by
  rcases text with _ | ⟨c, rest⟩
  · cases h
  · obtain ⟨first, more, hHere⟩ := List.exists_cons_of_ne_nil (lowerHere_ne_nil [] c rest)
    rw [lower, lowerAfter_cons, hHere, List.cons_append, List.head?_cons] at h
    obtain rfl := Option.some.inj h
    rw [of_mem_lowerHere (hHere ▸ List.mem_cons_self) hLow, List.head?_cons]

theorem lower_ne_nil {text : List Char} (h : text ≠ []) : lower text ≠ [] := by
  rcases text with _ | ⟨c, rest⟩
  · exact absurd rfl h
  · rw [lower, lowerAfter_cons]
    simp [lowerHere_ne_nil]

/-- A character before the capital letters has no other form in lower case. -/
theorem lowerHere_of_lt {c : Char} (h : c.toNat < 0x41) (before rest : List Char) :
    lowerHere before c rest = [c] := by
  have hSigma : (c == 'Σ') = false := by
    rw [beq_eq_false_iff_ne]
    rintro rfl
    exact absurd h (by decide)
  have hUpper : ¬(c.val ≥ 'A'.val ∧ c.val ≤ 'Z'.val) := by
    rintro ⟨hFirst, -⟩
    have hFirst : 65 ≤ c.toNat := hFirst
    omega
  have hLower : c.toLower = c := dif_neg hUpper
  rw [lowerHere, hSigma, if_neg Bool.false_ne_true, lowerChar, if_pos (by omega), hLower]

theorem mem_lowerAfter {before text : List Char} {c : Char} (hMem : c ∈ text)
    (h : c.toNat < 0x41) : c ∈ lowerAfter before text := by
  induction text generalizing before with
  | nil => cases hMem
  | cons first rest ih =>
    rw [lowerAfter_cons, List.mem_append]
    rcases List.mem_cons.mp hMem with rfl | hRest
    · exact .inl (by simp [lowerHere_of_lt h])
    · exact .inr (ih hRest)

theorem mem_lower {text : List Char} {c : Char} (hMem : c ∈ text) (h : c.toNat < 0x41) :
    c ∈ lower text :=
  mem_lowerAfter hMem h

/-! ### Upper case -/

/-- The images of runs of capitals are characters, none of them before the capital letters. -/
theorem upperRuns_valid : ∀ run ∈ upperRuns, 0x41 ≤ run.2.2.2 ∧
    (run.2.2.2 + (run.2.1 - run.1) < 0xD800 ∨ 0xDFFF < run.2.2.2) ∧
    run.2.2.2 + (run.2.1 - run.1) < 0x110000 := by decide +kernel

theorem upperExpansions_valid : ∀ expansion ∈ upperExpansions,
    expansion.2 ≠ [] ∧ ∀ image ∈ expansion.2, 0x41 ≤ image ∧ image.isValidChar := by
  decide +kernel

theorem toUpper_of_lt {c : Char} (h : c.toUpper.toNat < 0x41) : c.toUpper = c := by
  by_cases hLower : 'a'.val ≤ c.val ∧ c.val ≤ 'z'.val
  · have hUpper : c.toUpper.val = c.val + ('A'.val - 'a'.val) :=
      (congrArg Char.val (dif_pos hLower) :)
    rw [Char.toNat, hUpper, UInt32.toNat_add,
      show ('A'.val - 'a'.val).toNat = 4294967264 by decide] at h
    obtain ⟨hFirst, hLast⟩ := hLower
    have hFirst : 97 ≤ c.val.toNat := hFirst
    have hLast : c.val.toNat ≤ 122 := hLast
    omega
  · exact dif_neg hLower

theorem lookup_mem {rows : List (Nat × List Nat)} {code : Nat} {images : List Nat}
    (h : rows.lookup code = some images) : (code, images) ∈ rows := by
  obtain ⟨before, after, hRows, -⟩ := List.lookup_eq_some_iff.mp h
  simp [hRows]

/-- A character before the capital letters is the upper-case form of itself only. -/
theorem of_mem_upperChar {c d : Char} (h : d ∈ upperChar c) (hLow : d.toNat < 0x41) : d = c := by
  rw [upperChar] at h
  split at h
  · obtain rfl := List.mem_singleton.mp h
    exact toUpper_of_lt hLow
  · split at h
    · rename_i images hImages
      obtain ⟨image, hImage, rfl⟩ := List.mem_map.mp h
      obtain ⟨hLarge, hValid⟩ := (upperExpansions_valid _ (lookup_mem hImages)).2 image hImage
      rw [toNat_ofNat hValid] at hLow
      omega
    · split at h
      · rename_i image hImage
        obtain rfl := List.mem_singleton.mp h
        obtain ⟨run, hRun, ⟨-, hLast, -⟩, hValue⟩ := exists_maps_of_runImage? hImage
        obtain ⟨hStart, hBlock, hEnd⟩ := upperRuns_valid run hRun
        have hValid : image.isValidChar := by
          simp only [Nat.isValidChar]
          omega
        rw [toNat_ofNat hValid] at hLow
        omega
      · exact List.mem_singleton.mp h

theorem upperChar_ne_nil (c : Char) : upperChar c ≠ [] := by
  rw [upperChar]
  split
  · simp
  · split
    · rename_i images hImages
      simpa using (upperExpansions_valid _ (lookup_mem hImages)).1
    · split <;> simp

end EntityGen.Text
