import EntityGen.TypeScript.Literal

/-! Property keys can be told apart at the start of a line. A key that is an identifier ends before
the first character that no name has, and one that is quoted ends at its closing quote. -/

namespace EntityGen.TypeScript

/-- A character that may stand in an identifier. -/
def isNameChar (c : Char) : Bool := c.isAlphanum || c == '_' || c == '$'

variable {c d : Char} {p q : List Char}

theorem literalChar_ne_quote : literalChar c ++ p ≠ '\'' :: q := by
  intro h
  rw [literalChar.eq_def] at h
  split at h <;> grind

theorem literalChar_append_inj (h : literalChar c ++ p = literalChar d ++ q) : c = d ∧ p = q := by
  rw [literalChar.eq_def, literalChar.eq_def] at h
  split at h <;> split at h <;> grind

theorem literal_append_inj {s t : List Char}
    (h : s.flatMap literalChar ++ '\'' :: p = t.flatMap literalChar ++ '\'' :: q) : s = t := by
  induction s generalizing t with
  | nil =>
    cases t with
    | nil => rfl
    | cons d t =>
      rw [List.flatMap_cons, List.append_assoc] at h
      exact absurd h.symm literalChar_ne_quote
  | cons c s ih =>
    cases t with
    | nil =>
      rw [List.flatMap_cons, List.append_assoc] at h
      exact absurd h literalChar_ne_quote
    | cons d t =>
      rw [List.flatMap_cons, List.flatMap_cons, List.append_assoc, List.append_assoc] at h
      obtain ⟨rfl, hRest⟩ := literalChar_append_inj h
      rw [ih hRest]

theorem isNameChar_of_mem {name : String} (h : isIdentifier name = true) :
    ∀ c ∈ name.toList, isNameChar c = true := by
  rw [isIdentifier] at h
  split at h
  · cases h
  · rename_i first rest hChars
    rw [hChars]
    simp only [Bool.and_eq_true, Bool.or_eq_true, List.all_eq_true] at h
    refine List.forall_mem_cons.mpr ⟨?_, fun c hc => ?_⟩
    · simp only [isNameChar, Char.isAlphanum, Bool.or_eq_true]
      exact h.1.imp_left (Or.imp_left .inl)
    · simpa [isNameChar] using h.2 c hc

theorem literal_toList (name : String) :
    (literal name).toList = '\'' :: (name.toList.flatMap literalChar ++ ['\'']) := by
  rw [literal, String.toList_ofList, List.cons_append]

theorem identifier_ne_literal {name other : String} (h : isIdentifier name = true) :
    name.toList ++ p ≠ (literal other).toList ++ q := by
  intro hSame
  rw [literal_toList, List.cons_append] at hSame
  have hChars := isNameChar_of_mem h
  cases hName : name.toList with
  | nil => simp [isIdentifier, hName] at h
  | cons first rest =>
    rw [hName, List.cons_append] at hSame
    have hFirst := hChars first (hName ▸ List.mem_cons_self)
    rw [(List.cons.inj hSame).1] at hFirst
    exact absurd hFirst (by decide)

/-- A key that is followed by a character that no identifier has determines its property. -/
theorem propertyKey_append_inj {name other : String} (hc : isNameChar c = false)
    (hd : isNameChar d = false)
    (h : (propertyKey name).toList ++ c :: p = (propertyKey other).toList ++ d :: q) :
    name = other := by
  rw [propertyKey, propertyKey] at h
  split at h <;> split at h
  · rename_i hName hOther
    have hTaken := congrArg (List.takeWhile isNameChar) h
    rw [List.takeWhile_append_of_pos (isNameChar_of_mem hName),
      List.takeWhile_append_of_pos (isNameChar_of_mem hOther),
      List.takeWhile_cons_of_neg (by simp [hc]), List.takeWhile_cons_of_neg (by simp [hd]),
      List.append_nil, List.append_nil] at hTaken
    exact String.toList_inj.mp hTaken
  · rename_i hName _
    exact absurd h (identifier_ne_literal hName)
  · rename_i _ hOther
    exact absurd h.symm (identifier_ne_literal hOther)
  · rw [literal_toList, literal_toList, List.cons_append, List.cons_append, List.append_assoc,
      List.append_assoc] at h
    exact String.toList_inj.mp (literal_append_inj (List.cons.inj h).2)

end EntityGen.TypeScript
