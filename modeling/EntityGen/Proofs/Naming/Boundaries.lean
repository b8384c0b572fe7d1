import EntityGen.Proofs.Generation.Mirror
import EntityGen.Proofs.Naming
import EntityGen.Proofs.Text.Lowered

/-! Where the hyphens of a stem come from. A pass over a name goes on behind both characters of a
boundary, and yet it misses none: a name falls into pieces at its boundaries, and its stem is these
pieces with hyphens between them, in lower case. A stem is its own stem, and so are the directories
of models. -/

namespace EntityGen.Naming

/-- Whether a small letter of the alphabet meets a capital one. -/
def Meets (c d : Char) : Prop := ('a' ≤ c ∧ c ≤ 'z') ∧ 'A' ≤ d ∧ d ≤ 'Z'

instance (c d : Char) : Decidable (Meets c d) := inferInstanceAs (Decidable (_ ∧ _))

theorem isBoundary_iff {c d : Char} : isBoundary c d = true ↔ Meets c d := by
  simp [isBoundary, Meets, Char.isLower, Char.isUpper, Char.le_def]

theorem Meets.isUpper {c d : Char} (h : Meets c d) : d.isUpper := by
  have hBoundary := isBoundary_iff.mpr h
  simp only [isBoundary, Bool.and_eq_true] at hBoundary
  exact hBoundary.2

/-- The pieces of a text that is cut wherever a small letter meets a capital one, and nowhere else. -/
structure CutAtBoundaries (text : List Char) (pieces : List (List Char)) : Prop where
  flatten_eq : pieces.flatten = text
  nil_notMem : [] ∉ pieces
  whole : ∀ piece ∈ pieces, piece.IsChain fun c d => ¬Meets c d
  parted : pieces.IsChain fun left right =>
    ∃ hLeft hRight, Meets (left.getLast hLeft) (right.head hRight)

/-- A text is cut at its boundaries in one way only. -/
theorem cutAtBoundaries_iff {text : List Char} {pieces : List (List Char)} :
    CutAtBoundaries text pieces ↔ text.splitBy (fun c d => !decide (Meets c d)) = pieces := by
  rw [List.splitBy_eq_iff]
  simp only [Bool.not_eq_true', Bool.not_eq_false', decide_eq_true_eq, decide_eq_false_iff_not]
  exact ⟨fun h => ⟨h.flatten_eq.symm, h.nil_notMem, h.whole, h.parted⟩,
    fun ⟨hText, hNil, hWhole, hParted⟩ => ⟨hText.symm, hNil, hWhole, hParted⟩⟩

/-! ### One pass -/

/-- A capital letter begins no boundary, so that a pass may go on behind it. -/
theorem hyphenate_cons_of_isUpper {c : Char} (h : c.isUpper) (rest : List Char) :
    hyphenate (c :: rest) = c :: hyphenate rest := by
  cases rest with
  | nil => rfl
  | cons d more =>
    have hApart : ¬isBoundary c d := by simp [isBoundary, Char.not_isLower_of_isUpper h]
    rw [hyphenate, if_neg hApart]

/-- The pass misses no boundary: each two neighbours are looked at, those behind a boundary too. -/
theorem hyphenate_cons_cons (c d : Char) (rest : List Char) :
    hyphenate (c :: d :: rest) =
      if Meets c d then c :: '-' :: hyphenate (d :: rest) else c :: hyphenate (d :: rest) := by
  rw [hyphenate]
  by_cases h : Meets c d
  · rw [if_pos (isBoundary_iff.mpr h), if_pos h, hyphenate_cons_of_isUpper h.isUpper]
  · rw [if_neg (mt isBoundary_iff.mp h), if_neg h]

theorem hyphenate_eq_self {text : List Char} (h : text.IsChain fun c d => ¬Meets c d) :
    hyphenate text = text := by
  induction h with
  | nil => rfl
  | singleton c => rfl
  | cons_cons hApart _ ih => rw [hyphenate_cons_cons, if_neg hApart, ih]

/-- What is before a boundary and what is behind it are hyphenated apart. -/
theorem hyphenate_append {left right : List Char} (hLeft : left ≠ []) (hRight : right ≠ [])
    (h : Meets (left.getLast hLeft) (right.head hRight)) :
    hyphenate (left ++ right) = hyphenate left ++ '-' :: hyphenate right := by
  induction left with
  | nil => exact absurd rfl hLeft
  | cons c rest ih =>
    cases rest with
    | nil =>
      obtain ⟨d, more, rfl⟩ := List.exists_cons_of_ne_nil hRight
      have hMeets : Meets c d := h
      rw [List.singleton_append, hyphenate_cons_cons, if_pos hMeets]
      rfl
    | cons e more =>
      have hRest : hyphenate (e :: (more ++ right)) = _ := ih (List.cons_ne_nil e more) h
      simp only [List.cons_append, hyphenate_cons_cons, hRest]
      split <;> rfl

/-- A hyphenated text is its pieces with hyphens between them. -/
theorem CutAtBoundaries.hyphenate_eq {text : List Char} {pieces : List (List Char)}
    (h : CutAtBoundaries text pieces) : hyphenate text = ['-'].intercalate pieces := by
  obtain ⟨rfl, hNil, hWhole, hParted⟩ := h
  -- by the boundaries between the pieces, so that a step has the one behind its first piece
  induction hParted with
  | nil => rfl
  | singleton piece =>
    rw [List.flatten_singleton, List.intercalate_singleton]
    exact hyphenate_eq_self (hWhole piece List.mem_cons_self)
  | @cons_cons left right rest hBoundary _ ih =>
    obtain ⟨hLeft, hRight, hMeets⟩ := hBoundary
    have hBehind : (right :: rest).flatten ≠ [] := by
      simp [hRight]
    have hHead : (right :: rest).flatten.head hBehind = right.head hRight :=
      List.head_append_of_ne_nil hRight
    rw [List.flatten_cons, hyphenate_append hLeft hBehind (hHead ▸ hMeets),
      hyphenate_eq_self (hWhole left List.mem_cons_self),
      ih (fun hMem => hNil (List.mem_cons_of_mem _ hMem))
        fun piece hPiece => hWhole piece (List.mem_cons_of_mem _ hPiece),
      List.intercalate_cons_cons, List.append_assoc, List.singleton_append]

/-! ### Stems -/

/-- A text in lower case has no boundary. -/
theorem hyphenate_lower (text : List Char) : hyphenate (Text.lower text) = Text.lower text := by
  apply hyphenate_eq_self
  apply List.Pairwise.isChain
  apply List.pairwise_of_forall_mem_list
  intro c _ d hMem hMeets
  exact (Text.isLowered_of_mem_lower hMem).not_isUpper hMeets.isUpper

theorem stem_again (name : String) : stem (stem name) = stem name := by
  unfold stem
  rw [String.toList_ofList, hyphenate_lower, Text.lower_lower]

theorem map_stem_canonicalDirs (models : List String) :
    (canonicalDirs models).map stem = canonicalDirs models := by
  refine (List.map_congr_left fun dir hDir => ?_).trans (List.map_id _)
  obtain ⟨model, -, rfl⟩ := mem_canonicalDirs.mp hDir
  exact stem_again model

/-- A stem is the name with a hyphen wherever a small letter meets a capital one, and nowhere else,
in lower case, and it is its own stem. The directories of models, taken as names, are their own stems
too. -/
theorem stem_hyphens (name : String) :
    (∃! pieces, CutAtBoundaries name.toList pieces ∧
      stem name = String.ofList (Text.lower (['-'].intercalate pieces))) ∧
    stem (stem name) = stem name ∧
    ∀ models, (canonicalDirs models).map stem = canonicalDirs models := by
  refine ⟨?_, stem_again name, map_stem_canonicalDirs⟩
  let pieces := name.toList.splitBy fun c d => !decide (Meets c d)
  have hCut : CutAtBoundaries name.toList pieces := cutAtBoundaries_iff.mpr rfl
  refine ⟨pieces, ⟨hCut, by rw [stem, hCut.hyphenate_eq]⟩, ?_⟩
  intro others h
  exact (cutAtBoundaries_iff.mp h.1).symm

/-- The second boundary is next to the first one, and the sigma is the last letter of the word. -/
example : stem "aBcDΣ" = "a-bc-dς" := by decide +kernel

end EntityGen.Naming
