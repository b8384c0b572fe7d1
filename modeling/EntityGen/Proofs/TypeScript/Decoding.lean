import EntityGen.Proofs.TypeScript.Literal
import EntityGen.Proofs.TypeScript.Scanner

/-! Literals decode to their text. The characters that need it can be escaped one after another, the
backslash first: what a replacement writes is left alone by those after it. A scanner reads exactly
the characters of a literal, whatever follows, and finds the text; so no literal is the start of
another. -/

namespace EntityGen.TypeScript

/-! ### Escapes -/

/-- Every place of a character taken by a text. -/
def replaced (c : Char) (escape : List Char) (text : List Char) : List Char :=
  text.flatMap fun d => if d = c then escape else [d]

/-- The characters that are escaped, each with its escape, in the order in which they are replaced. -/
def escapes : List (Char × List Char) :=
  [('\\', ['\\', '\\']), ('\'', ['\\', '\'']), ('\n', ['\\', 'n']), ('\r', ['\\', 'r']),
    ('\t', ['\\', 't'])]

/-- A text after replacements one after another, each of them in the whole text. -/
def replacedInTurn (replacements : List (Char × List Char)) (text : List Char) : List Char :=
  replacements.foldl (fun text row => replaced row.1 row.2 text) text

variable {c : Char} {s t more rest : List Char}

theorem replacedInTurn_flatMap (replacements : List (Char × List Char)) (f : Char → List Char)
    (text : List Char) : replacedInTurn replacements (text.flatMap f) =
      text.flatMap fun c => replacedInTurn replacements (f c) := by
  induction replacements generalizing f with
  | nil => rfl
  | cons row replacements ih =>
    have hFirst : replaced row.1 row.2 (text.flatMap f) =
        text.flatMap fun c => replaced row.1 row.2 (f c) := List.flatMap_assoc
    show replacedInTurn replacements (replaced row.1 row.2 (text.flatMap f)) = _
    rw [hFirst, ih]
    rfl

/-- A character that is not replaced stays. -/
theorem replacedInTurn_self {replacements : List (Char × List Char)}
    (h : ∀ row ∈ replacements, c ≠ row.1) : replacedInTurn replacements [c] = [c] := by
  induction replacements with
  | nil => rfl
  | cons row replacements ih =>
    rw [List.forall_mem_cons] at h
    have hFirst : replaced row.1 row.2 [c] = [c] := by
      rw [replaced, List.flatMap_singleton, if_neg h.1]
    show replacedInTurn replacements (replaced row.1 row.2 [c]) = [c]
    rw [hFirst]
    exact ih h.2

/-- One character comes to its escape: the backslash that a replacement writes is not replaced
again, since backslashes come first, nor are the letters of the others. -/
theorem replacedInTurn_singleton (c : Char) : replacedInTurn escapes [c] = literalChar c := by
  rw [literalChar.eq_def]
  split
  case h_6 hBackslash hQuote hLine hReturn hTab =>
    refine replacedInTurn_self ?_
    simp only [escapes, List.forall_mem_cons]
    exact ⟨hBackslash, hQuote, hLine, hReturn, hTab, List.forall_mem_nil _⟩
  all_goals decide

theorem replacedInTurn_escapes (text : List Char) :
    replacedInTurn escapes text = text.flatMap literalChar := by
  have hText := replacedInTurn_flatMap escapes (fun c => [c]) text
  rw [List.flatMap_singleton'] at hText
  rw [hText]
  exact congrArg (text.flatMap ·) (funext replacedInTurn_singleton)

/-! ### Reading a literal -/

/-- The ways in which a character is written: as it is, or behind a backslash. -/
theorem literalChar_steps (c : Char) :
    (literalChar c = [c] ∧ plainStep? c = some (unitsOf c.toNat, some .plain)) ∨
      ∃ d, literalChar c = ['\\', d] ∧ escapeStep? d = some (unitsOf c.toNat, some .plain) := by
  rw [literalChar.eq_def]
  split
  case h_1 => exact .inr ⟨'\\', rfl, by decide⟩
  case h_2 => exact .inr ⟨'\'', rfl, by decide⟩
  case h_3 => exact .inr ⟨'n', rfl, by decide⟩
  case h_4 => exact .inr ⟨'r', rfl, by decide⟩
  case h_5 => exact .inr ⟨'t', rfl, by decide⟩
  case h_6 hBackslash hQuote hLine hReturn hTab =>
    have hOrdinary : breaksLiteral c = false := by
      simp only [breaksLiteral, Bool.or_eq_false_iff, beq_eq_false_iff_ne]
      exact ⟨⟨hQuote, hLine⟩, hReturn⟩
    exact .inl ⟨rfl, plainStep?_of_ordinary hOrdinary hBackslash⟩

theorem scan?_literalChar (c : Char) (rest : List Char) :
    scan? .plain (literalChar c ++ rest) =
      (scan? .plain rest).map fun read => (unitsOf c.toNat ++ read.1, read.2) := by
  rcases literalChar_steps c with ⟨hText, hStep⟩ | ⟨d, hText, hStep⟩
  · rw [hText, List.singleton_append, scan?, step?, hStep]
  · have hBackslash : plainStep? '\\' = some ([], some .escape) := rfl
    rw [hText, List.cons_append, List.singleton_append, scan?, step?, hBackslash]
    simp only
    rw [scan?, step?, hStep, Option.map_map]
    rfl

theorem readLiteral?_literal (text : String) (rest : List Char) :
    readLiteral? ((literal text).toList ++ rest) = some (unitsOfText text.toList, rest) := by
  rw [literal_toList, List.cons_append, readLiteral?]
  induction text.toList with
  | nil => rfl
  | cons c chars ih =>
    rw [List.flatMap_cons, List.append_assoc, List.append_assoc, scan?_literalChar,
      ← List.append_assoc, ih]
    rfl

/-! ### The text that code units stand for -/

/-- The code units of a character end where they do: what follows them is known. -/
theorem unitsOf_append_inj {c d : Char} {p q : List Nat}
    (h : unitsOf c.toNat ++ p = unitsOf d.toNat ++ q) : c = d ∧ p = q := by
  -- a surrogate is no character, so a pair of them is told from a unit that stands alone
  have hValid (c : Char) : c.toNat < 0xD800 ∨ 0xDFFF < c.toNat ∧ c.toNat < 0x110000 := c.valid
  have hc := hValid c
  have hd := hValid d
  suffices h : c.toNat = d.toNat ∧ p = q from ⟨Char.toNat_inj.mp h.1, h.2⟩
  simp only [unitsOf] at h
  split at h <;> split at h <;>
    simp only [List.cons_append, List.nil_append, List.cons.injEq] at h
  · exact h
  · omega
  · omega
  · exact ⟨by omega, h.2.2⟩

theorem unitsOfText_inj : unitsOfText s = unitsOfText t ↔ s = t := by
  refine ⟨fun h => ?_, congrArg unitsOfText⟩
  have hSome (c : Char) (chars : List Char) : unitsOfText (c :: chars) ≠ [] := by
    rw [unitsOfText, List.flatMap_cons, unitsOf]
    split <;> exact List.cons_ne_nil _ _
  induction s generalizing t with
  | nil =>
    cases t with
    | nil => rfl
    | cons d t => exact absurd h.symm (hSome d t)
  | cons c s ih =>
    cases t with
    | nil => exact absurd h (hSome c s)
    | cons d t =>
      obtain ⟨rfl, hRest⟩ := unitsOf_append_inj h
      rw [ih hRest]

/-! ### Literals -/

theorem notMem_literal {c : Char} (h : ∀ d, c ∉ literalChar d) (hQuote : c ≠ '\'') (text : String) :
    c ∉ (literal text).toList := by
  rw [literal_toList, List.mem_cons, List.mem_append, List.mem_flatMap, List.mem_singleton]
  rintro (hFirst | ⟨d, -, hInside⟩ | hLast)
  · exact hQuote hFirst
  · exact h d hInside
  · exact hQuote hLast

theorem breaks_notMem_literalChar (d : Char) : '\n' ∉ literalChar d ∧ '\r' ∉ literalChar d := by
  rw [literalChar.eq_def]
  split
  case h_6 hBackslash hQuote hLine hReturn hTab =>
    exact ⟨fun h => hLine (List.mem_singleton.mp h).symm,
      fun h => hReturn (List.mem_singleton.mp h).symm⟩
  all_goals decide

theorem literal_prefix_iff {s t : String} :
    (literal s).toList <+: (literal t).toList ↔ s = t := by
  refine ⟨fun ⟨rest, h⟩ => ?_, fun h => h ▸ List.prefix_refl _⟩
  have hRead := readLiteral?_literal t []
  rw [List.append_nil, ← h, readLiteral?_literal] at hRead
  exact String.toList_inj.mp (unitsOfText_inj.mp (Prod.mk.inj (Option.some.inj hRead)).1)

theorem literal_inj {s t : String} : literal s = literal t ↔ s = t :=
  ⟨fun h => literal_prefix_iff.mp (h ▸ List.prefix_refl _), congrArg literal⟩

/-- A literal is a text with its escapes put in one after another, between quotes. Whatever stands
behind it, a scanner reads its characters and no more, meets no line break among them, and finds the
code units of that text and of no other; so different texts have different literals, and no literal
is the start of another. -/
theorem literal_decodes (s t : String) :
    (literal s).toList = '\'' :: (replacedInTurn escapes s.toList ++ ['\'']) ∧
      readLiteral? ((literal s).toList ++ t.toList) = some (unitsOfText s.toList, t.toList) ∧
      ('\n' ∉ (literal s).toList ∧ '\r' ∉ (literal s).toList) ∧
      (unitsOfText s.toList = unitsOfText t.toList ↔ s = t) ∧
      (literal s = literal t ↔ s = t) ∧
      ((literal s).toList <+: (literal t).toList ↔ s = t) := by
  refine ⟨?_, readLiteral?_literal s t.toList, ⟨?_, ?_⟩, ?_, literal_inj, literal_prefix_iff⟩
  · rw [replacedInTurn_escapes, literal_toList]
  · exact notMem_literal (fun d => (breaks_notMem_literalChar d).1) (by decide) s
  · exact notMem_literal (fun d => (breaks_notMem_literalChar d).2) (by decide) s
  · rw [unitsOfText_inj, String.toList_inj]

end EntityGen.TypeScript
