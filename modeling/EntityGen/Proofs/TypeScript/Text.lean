import EntityGen.Proofs.Shuffled
import EntityGen.Proofs.TypeScript.Literal
import EntityGen.TypeScript.Text

/-! Generated text as characters, and rows that are written under the key of a property: their order
can be read off the text. -/

namespace EntityGen.TypeScript

/-- The characters of a line with its end. -/
def lineChars (line : String) : List Char := line.toList ++ ['\n']

theorem fileText_toList (lines : List String) :
    (fileText lines).toList = lines.flatMap lineChars := by
  rw [fileText]
  induction lines with
  | nil => rfl
  | cons line rest ih =>
    rw [List.map_cons, String.join_cons, String.toList_append, String.toList_append, ih,
      List.flatMap_cons]
    rfl

/-- Every row is written under its name as a property key, after the same indentation. -/
def KeyFirst {α : Type} (indent : List Char) (line : String × α → List Char) : Prop :=
  ∀ row, ∃ c rest, isNameChar c = false ∧
    line row = indent ++ ((propertyKey row.1).toList ++ c :: rest)

variable {α : Type} {indent : List Char} {line : String × α → List Char}

theorem KeyFirst.name_eq (h : KeyFirst indent line) {a b : String × α} {p q : List Char}
    (hText : line a ++ p = line b ++ q) : a.1 = b.1 := by
  obtain ⟨c, rest, hc, ha⟩ := h a
  obtain ⟨d, others, hd, hb⟩ := h b
  simp only [ha, hb, List.append_assoc, List.cons_append, List.append_cancel_left_eq] at hText
  exact propertyKey_append_inj hc hd hText

/-- Shuffled rows that are written under their keys are written alike if and only if they have the
same order and are written alike one by one. -/
theorem KeyFirst.flatMap_eq_iff (h : KeyFirst indent line) {R : α → α → Prop}
    {rows others : List (String × α)} (hShuffled : Shuffled R rows others)
    (hLength : ∀ name x y, R x y → (line (name, x)).length = (line (name, y)).length) :
    rows.flatMap line = others.flatMap line ↔
      rows.map (·.1) = others.map (·.1) ∧
        ∀ name x y, (name, x) ∈ rows → (name, y) ∈ others → line (name, x) = line (name, y) :=
  hShuffled.flatMap_eq_iff (fun _ _ _ _ _ _ => h.name_eq) hLength

end EntityGen.TypeScript
