import EntityGen.Proofs.Number.Reading
import EntityGen.Yaml.Scalar

/-! Numerals of generated code: what a text denotes as a number. The text of a number denotes a number
of its value just if the number is not infinite; infinity has a name, and is not written by it. -/

namespace EntityGen.TypeScript

open Number (Positional)

/-- The base of a numeral that starts with a zero, by the letter behind it. -/
def numeralBase? (mark : Char) : Option Nat :=
  if mark == 'x' || mark == 'X' then some 16
  else if mark == 'o' || mark == 'O' then some 8
  else if mark == 'b' || mark == 'B' then some 2
  else none

/-- The number that a numeric literal denotes: the one nearest to its value. No digit may follow a
zero in front. -/
def numericLiteral? (text : List Char) : Option Number :=
  match text with
  | '0' :: mark :: rest =>
    match numeralBase? mark with
    | some base => (Yaml.natural? base rest).map fun n => .ofInt n
    | none => if mark.isDigit then none else Number.readMagnitude? false text
  | text => Number.readMagnitude? false text

def negate : Number → Number
  | .nan => .nan
  | .infinite negative => .infinite !negative
  | .finite negative m e => .finite (!negative) m e

/-- The number that a numeral denotes: a literal, or the name of one that no literal denotes. -/
def unsignedNumber? (text : List Char) : Option Number :=
  if text = ['N', 'a', 'N'] then some .nan
  else if text = ['I', 'n', 'f', 'i', 'n', 'i', 't', 'y'] then some (.infinite false)
  else numericLiteral? text

/-- The number that a text denotes, perhaps with a minus in front. -/
def number? (text : List Char) : Option Number :=
  match text with
  | '-' :: rest => (unsignedNumber? rest).map negate
  | text => unsignedNumber? text

/-- A text denotes a number of the value of another. -/
def Denotes (text : String) (x : Number) : Prop :=
  ∃ y, number? text.toList = some y ∧ y.sameValue x = true

variable {text whole fraction : List Char}

/-- How a positional numeral starts. -/
theorem starts_of_positional (h : Positional text whole fraction) :
    (∃ c rest, text = c :: rest ∧ c.isDigit = true ∧ c ≠ '0') ∨ text = ['0'] ∨
      ∃ rest, text = '0' :: '.' :: rest := by
  have hText : text = whole ∨ text = whole ++ '.' :: fraction := h.parts.imp_left And.right
  rcases h.starts with rfl | ⟨c, rest, rfl, hZero⟩
  · exact .inr (hText.imp id fun h => ⟨fraction, h⟩)
  · have hDigit := h.digits c List.mem_cons_self
    rcases hText with rfl | rfl
    · exact .inl ⟨c, rest, rfl, hDigit, hZero⟩
    · exact .inl ⟨c, _, List.cons_append, hDigit, hZero⟩

theorem numericLiteral?_of_positional (h : Positional text whole fraction) :
    numericLiteral? text = Number.readMagnitude? false text := by
  rcases starts_of_positional h with ⟨c, rest, rfl, -, hZero⟩ | rfl | ⟨rest, rfl⟩
  · rw [numericLiteral?.eq_def]
    split
    · rename_i hSame
      exact absurd (List.cons.inj hSame).1 hZero
    · rfl
  · rfl
  · rfl

theorem unsignedNumber?_of_positional (h : Positional text whole fraction) :
    unsignedNumber? text = Number.readMagnitude? false text := by
  have hNames : text ≠ ['N', 'a', 'N'] ∧ text ≠ ['I', 'n', 'f', 'i', 'n', 'i', 't', 'y'] := by
    rcases starts_of_positional h with ⟨c, rest, rfl, hDigit, -⟩ | rfl | ⟨rest, rfl⟩
    · constructor <;> rintro ⟨⟩ <;> exact absurd hDigit (by decide)
    · decide
    · simp
  rw [unsignedNumber?, if_neg hNames.1, if_neg hNames.2, numericLiteral?_of_positional h]

theorem number?_signed (h : Positional text whole fraction) (negative : Bool) :
    number? (Number.signed negative text).toList =
      (Number.readMagnitude? false text).map fun x => if negative then negate x else x := by
  rw [Number.signed, String.toList_ofList]
  cases negative with
  | true =>
    show (unsignedNumber? text).map negate = _
    rw [unsignedNumber?_of_positional h]
    rfl
  | false =>
    simp only [Bool.false_eq_true, if_false, Option.map_id']
    rw [number?.eq_def]
    split
    · rename_i rest
      rcases starts_of_positional h with ⟨c, more, hText, hDigit, -⟩ | hText | ⟨more, hText⟩
      · obtain rfl := (List.cons.inj hText).1
        exact absurd hDigit (by decide)
      · cases hText
      · cases hText
    · exact unsignedNumber?_of_positional h

/-- A finite number that is not zero is denoted by its text. -/
theorem number?_finite {negative : Bool} {m : Nat} {e : Int} (hPos : 0 < m)
    (hCanonical : (Number.finite negative m e).Canonical) :
    number? (Number.finite negative m e).sourceText.toList = some (.finite negative m e) := by
  obtain ⟨text, whole, fraction, hText, hPositional, hRounds⟩ :=
    Number.sourceText_finite hPos hCanonical
  have hForm : (Number.finite false m e).Canonical := hCanonical
  rw [hText, number?_signed hPositional, hPositional.read_eq hPos hForm hRounds]
  cases negative <;> rfl

/-- The text of a number denotes a number of its value just if it is not infinite. -/
theorem denotes_sourceText_iff {x : Number} (h : x.Canonical) :
    Denotes x.sourceText x ↔ ∀ negative, x ≠ .infinite negative := by
  cases x with
  | nan => exact iff_of_true ⟨.nan, rfl, rfl⟩ fun _ => Number.noConfusion
  | infinite negative =>
    refine iff_of_false ?_ fun h => h negative rfl
    rintro ⟨y, hSome, -⟩
    cases negative <;> cases hSome
  | finite negative m e =>
    refine iff_of_true ?_ fun _ => Number.noConfusion
    rcases Nat.eq_zero_or_pos m with rfl | hPos
    · have hZero : Number.sourceText (.finite negative 0 e) = "0" := by
        rw [Number.sourceText, Number.IsZero.toInt? ⟨negative, e, rfl⟩]
        rfl
      rw [Denotes, hZero]
      exact ⟨Number.zero false, rfl, rfl⟩
    · exact ⟨_, number?_finite hPos h, Number.sameValue_refl _⟩

end EntityGen.TypeScript
