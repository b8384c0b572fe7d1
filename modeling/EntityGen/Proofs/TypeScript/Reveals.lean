import EntityGen.Proofs.Number
import EntityGen.Proofs.TypeScript.Literal

/-! Pieces of code that can be told apart where they stand. Two pieces reveal a fact if they cannot
begin the same text, each with its own continuation, unless the fact holds; the continuations are
then the same. A literal reveals its text before anything, since no text contains a quote that would
end it. A name or a number does so before a character that cannot belong to it. -/

namespace EntityGen.TypeScript

/-- Whether a text is empty or starts with a character that is not of a kind. -/
def Ends (kind : Char → Bool) (text : List Char) : Prop := ∀ c ∈ text.head?, kind c = false

variable {kind other : Char → Bool} {s t u v : List Char} {P Q : Prop}

@[simp] theorem ends_nil : Ends kind [] := by simp [Ends]

@[simp] theorem ends_cons {c : Char} {text : List Char} :
    Ends kind (c :: text) ↔ kind c = false := by simp [Ends]

/-- What follows two pieces of code is known, and so is a fact, if no character of a kind follows
and the whole text is the same. -/
def Reveals (kind : Char → Bool) (s t : List Char) (P : Prop) : Prop :=
  ∀ ⦃p q⦄, Ends kind p → Ends kind q → s ++ p = t ++ q → P ∧ p = q

namespace Reveals

theorem imp (h : Reveals kind s t P) (hImp : P → Q) : Reveals kind s t Q :=
  fun _ _ hp hq hText => (h hp hq hText).imp_left hImp

theorem same (hP : P) : Reveals kind s s P :=
  fun _ _ _ _ hText => ⟨hP, List.append_cancel_left hText⟩

/-- One piece after another: the second may depend on what the first has revealed. -/
theorem append (h : Reveals kind s t P) (hMore : P → Reveals other u v Q)
    (hu : ∀ p, Ends other p → Ends kind (u ++ p)) (hv : ∀ p, Ends other p → Ends kind (v ++ p)) :
    Reveals other (s ++ u) (t ++ v) (P ∧ Q) := by
  intro p q hp hq hText
  rw [List.append_assoc, List.append_assoc] at hText
  obtain ⟨hP, hText⟩ := h (hu p hp) (hv q hq) hText
  obtain ⟨hQ, hText⟩ := hMore hP hp hq hText
  exact ⟨⟨hP, hQ⟩, hText⟩

/-- One piece after another that needs no end. -/
theorem andThen (h : Reveals (fun _ => false) s t P) (hMore : P → Reveals other u v Q) :
    Reveals other (s ++ u) (t ++ v) (P ∧ Q) :=
  h.append hMore (fun _ _ _ _ => rfl) (fun _ _ _ _ => rfl)

/-- What comes before both pieces hides nothing. -/
theorem after (start : List Char) (h : Reveals kind s t P) :
    Reveals kind (start ++ s) (start ++ t) P := by
  intro p q hp hq hText
  rw [List.append_assoc, List.append_assoc] at hText
  exact h hp hq (List.append_cancel_left hText)

/-- A piece that starts with a character that cannot belong to them ends both. -/
theorem before (h : Reveals kind s t P) (more : List Char)
    (hMore : (more.head?.any fun c => !kind c) = true) :
    Reveals other (s ++ more) (t ++ more) P := by
  have hEnds (p : List Char) : Ends kind (more ++ p) := by
    cases more with
    | nil => cases hMore
    | cons c more => simpa using hMore
  intro p q _ _ hText
  rw [List.append_assoc, List.append_assoc] at hText
  obtain ⟨hP, hRest⟩ := h (hEnds p) (hEnds q) hText
  exact ⟨hP, List.append_cancel_left hRest⟩

/-- Pieces that start differently do not begin the same text. -/
theorem of_head_ne {c d : Char} (h : c ≠ d) : Reveals kind (c :: s) (d :: t) P :=
  fun _ _ _ _ hText => absurd (List.cons.inj hText).1 h

/-- A piece of nothing is told from one that starts with an excluded character. -/
theorem of_nil_cons {d : Char} (h : kind d = true) : Reveals kind [] (d :: t) P := by
  intro p q hp _ hText
  rw [List.nil_append] at hText
  rw [hText, List.cons_append, ends_cons, h] at hp
  cases hp

theorem symm (h : Reveals kind s t P) : Reveals kind t s P := by
  intro p q hp hq hText
  obtain ⟨hP, hTails⟩ := h hq hp hText.symm
  exact ⟨hP, hTails.symm⟩

/-- Words are read as far as their characters go. -/
theorem word (hs : ∀ c ∈ s, kind c = true) (ht : ∀ c ∈ t, kind c = true) :
    Reveals kind s t (s = t) := by
  have hTaken {s p : List Char} (hs : ∀ c ∈ s, kind c = true) (hp : Ends kind p) :
      (s ++ p).takeWhile kind = s := by
    rw [List.takeWhile_append_of_pos hs]
    cases p with
    | nil => exact List.append_nil s
    | cons c p => rw [List.takeWhile_cons_of_neg (by simpa using hp), List.append_nil]
  intro p q hp hq hText
  have hSame : s = t := by rw [← hTaken hs hp, hText, hTaken ht hq]
  subst hSame
  exact ⟨rfl, List.append_cancel_left hText⟩

/-- A part that may be left out, if all that is not left out starts with one character. -/
theorem option {α : Type} {R : α → α → Prop} {start : Char} (text : Option α → List Char)
    (hNone : text none = []) (hSome : ∀ a, ∃ rest, text (some a) = start :: rest)
    (h : ∀ a b, Reveals (· == start) (text (some a)) (text (some b)) (R a b)) (x y : Option α) :
    Reveals (· == start) (text x) (text y) (Option.Rel R x y) := by
  have hApart (b : α) : Reveals (· == start) (text none) (text (some b)) False := by
    obtain ⟨rest, hRest⟩ := hSome b
    rw [hNone, hRest]
    exact .of_nil_cons (beq_self_eq_true start)
  cases x with
  | none =>
    cases y with
    | none => exact .same .none
    | some b => exact (hApart b).imp False.elim
  | some a =>
    cases y with
    | none => exact (hApart a).symm.imp False.elim
    | some b => exact (h a b).imp .some

end Reveals

/-! ### Literals, names and numbers -/

theorem literal_reveals (first second : String) :
    Reveals kind (literal first).toList (literal second).toList (first = second) := by
  intro p q _ _ hText
  have hSame : first = second := by
    rw [literal_toList, literal_toList, List.cons_append, List.cons_append, List.append_assoc,
      List.append_assoc] at hText
    exact String.toList_inj.mp (literal_append_inj (List.cons.inj hText).2)
  subst hSame
  exact ⟨rfl, List.append_cancel_left hText⟩

theorem propertyKey_reveals (first second : String) :
    Reveals isNameChar (propertyKey first).toList (propertyKey second).toList (first = second) := by
  rw [propertyKey, propertyKey]
  split <;> split
  · rename_i hFirst hSecond
    exact (Reveals.word (isNameChar_of_mem hFirst) (isNameChar_of_mem hSecond)).imp
      String.toList_inj.mp
  · rename_i hFirst _
    exact fun _ _ _ _ hText => absurd hText (identifier_ne_literal hFirst)
  · rename_i _ hSecond
    exact fun _ _ _ _ hText => absurd hText.symm (identifier_ne_literal hSecond)
  · exact literal_reveals first second

theorem member_reveals (first second : String) :
    Reveals isNameChar (member first).toList (member second).toList (first = second) := by
  have hLiterals : Reveals isNameChar (literal first).toList (literal second).toList
    (first = second) := literal_reveals first second
  rw [member, member]
  split <;> split <;> simp only [String.toList_append]
  · rename_i hFirst hSecond
    exact ((Reveals.word (isNameChar_of_mem hFirst) (isNameChar_of_mem hSecond)).imp
      String.toList_inj.mp).after _
  · exact .of_head_ne (by decide)
  · exact .of_head_ne (by decide)
  · exact (hLiterals.after _).before "]".toList (by decide)

theorem sourceText_reveals (x y : Number) :
    Reveals Number.isNumberChar x.sourceText.toList y.sourceText.toList
      (x.sourceText = y.sourceText) :=
  (Reveals.word (Number.isNumberChar_sourceText x) (Number.isNumberChar_sourceText y)).imp
    String.toList_inj.mp

/-- A number does not start like a literal. -/
theorem sourceText_reveals_literal (x : Number) (text : String) :
    Reveals kind x.sourceText.toList (literal text).toList P := by
  cases hText : x.sourceText.toList with
  | nil => exact absurd hText x.sourceText_ne_nil
  | cons c rest =>
    rw [literal_toList]
    refine .of_head_ne fun hQuote => ?_
    have hQuoteChar := x.isNumberChar_sourceText c (hText ▸ List.mem_cons_self)
    rw [hQuote] at hQuoteChar
    exact absurd hQuoteChar (by decide)

end EntityGen.TypeScript
