import EntityGen.Form.Message
import Mathlib.Data.List.TakeWhile

/-! Placeholders of templates. They are replaced all at once: each is replaced on its own, whatever
stands around it, and what it is replaced by is not read again. An opening brace that opens no
placeholder stays, and parts the template in two that are filled in apart. -/

namespace EntityGen.Form

/-- A text stands behind the opening brace of a placeholder: a word, and a closing brace. -/
def OpensPlaceholder (text : List Char) : Prop :=
  ∃ word rest, word ≠ [] ∧ (∀ c ∈ word, Text.isWordChar c = true) ∧ text = word ++ '\x7d' :: rest

/-- A segment of a template: text without an opening brace, or a word between braces. -/
inductive Segment where
  | text (chars : List Char) (noBrace : '\x7b' ∉ chars)
  | placeholder (word : List Char) (notEmpty : word ≠ [])
      (isWord : ∀ c ∈ word, Text.isWordChar c = true)

namespace Segment

/-- A segment as it is written in a template. -/
def source : Segment → List Char
  | text chars _ => chars
  | placeholder word _ _ => '\x7b' :: (word ++ ['\x7d'])

/-- A segment with parameters: a placeholder becomes what the first one of its name displays. -/
def filled (params : Params) : Segment → List Char
  | text chars _ => chars
  | placeholder word _ _ =>
    match params.find? fun row => row.1 = String.ofList word with
    | some row => row.2.display.toList
    | none => '\x7b' :: (word ++ ['\x7d'])

end Segment

variable {params : Params} {word text rest : List Char} {c : Char}

/-! ### Reading a placeholder -/

theorem placeholder?_eq_some_iff : placeholder? text = some (word, rest) ↔
    word ≠ [] ∧ (∀ c ∈ word, Text.isWordChar c = true) ∧ text = word ++ '\x7d' :: rest := by
  have hBrace : ¬Text.isWordChar '\x7d' = true := by decide
  simp only [placeholder?]
  constructor
  · intro h
    split at h
    · rename_i hRest
      split at h
      · cases h
      · rename_i hWord
        obtain ⟨rfl, rfl⟩ := Prod.mk.inj (Option.some.inj h)
        refine ⟨fun hNil => hWord (List.isEmpty_iff.mpr hNil), fun c => List.mem_takeWhile_imp, ?_⟩
        rw [← hRest, List.takeWhile_append_dropWhile]
    · cases h
  · rintro ⟨hWord, hChars, rfl⟩
    rw [List.takeWhile_append_of_pos hChars, List.dropWhile_append_of_pos hChars,
      List.takeWhile_cons_of_neg hBrace, List.dropWhile_cons_of_neg hBrace, List.append_nil]
    simp [hWord]

theorem placeholder?_eq_none_iff : placeholder? text = none ↔ ¬OpensPlaceholder text := by
  rw [← not_iff_not, not_not, ← ne_eq, Option.ne_none_iff_exists']
  simp only [Prod.exists, placeholder?_eq_some_iff, OpensPlaceholder]

/-- A placeholder that is read leaves less to read. -/
theorem length_of_placeholder? (h : placeholder? text = some (word, rest)) :
    rest.length < text.length := by
  obtain ⟨-, -, rfl⟩ := placeholder?_eq_some_iff.mp h
  rw [List.length_append, List.length_cons]
  omega

/-- No placeholder goes on over an opening brace. -/
theorem placeholder?_append (before after : List Char) :
    placeholder? (before ++ '\x7b' :: after) =
      (placeholder? before).map fun read => (read.1, read.2 ++ '\x7b' :: after) := by
  have hOpening : ¬Text.isWordChar '\x7b' = true := by decide
  cases hBefore : placeholder? before with
  | some read =>
    obtain ⟨hWord, hChars, hText⟩ := placeholder?_eq_some_iff.mp hBefore
    refine placeholder?_eq_some_iff.mpr ⟨hWord, hChars, ?_⟩
    rw [hText, List.append_assoc, List.cons_append]
  | none =>
    rw [placeholder?_eq_none_iff] at hBefore
    refine placeholder?_eq_none_iff.mpr ?_
    rintro ⟨word, rest, hWord, hChars, hText⟩
    rcases List.append_eq_append_iff.mp hText with ⟨more, rfl, hRest⟩ | ⟨more, rfl, hRest⟩
    · -- the opening brace would be in the word, or be the closing one
      cases more with
      | nil => exact absurd (List.cons.inj hRest).1 (by decide)
      | cons c more =>
        obtain ⟨rfl, -⟩ := List.cons.inj hRest
        exact hOpening (hChars '\x7b' (List.mem_append_right _ List.mem_cons_self))
    · cases more with
      | nil => exact absurd (List.cons.inj hRest).1 (by decide)
      | cons c more =>
        obtain ⟨rfl, -⟩ := List.cons.inj hRest
        exact hBefore ⟨word, more, hWord, hChars, rfl⟩

/-! ### Filling in a template -/

/-- More fuel than a template has characters changes nothing. -/
theorem substituteWithin_eq {fuel other : Nat} (h : text.length ≤ fuel)
    (hOther : text.length ≤ other) :
    substituteWithin params fuel text = substituteWithin params other text := by
  induction fuel generalizing other text with
  | zero =>
    obtain rfl := List.eq_nil_of_length_eq_zero (Nat.le_zero.mp h)
    cases other <;> rfl
  | succ fuel ih =>
    cases text with
    | nil => cases other <;> rfl
    | cons c text =>
      cases other with
      | zero => cases hOther
      | succ other =>
        rw [List.length_cons] at h hOther
        rw [substituteWithin, substituteWithin, ih (by omega) (Nat.le_of_succ_le_succ hOther)]
        cases hRead : placeholder? text with
        | none => rfl
        | some read =>
          have hLess := length_of_placeholder? hRead
          have hRest : substituteWithin params fuel read.2 = substituteWithin params other read.2 :=
            ih (by omega) (by omega)
          simp only [hRest]

/-- A template with its placeholders filled in. -/
def fill (params : Params) (template : List Char) : List Char :=
  substituteWithin params template.length template

theorem substitute_eq (template : String) :
    substitute params template = String.ofList (fill params template.toList) := rfl

theorem fill_cons_of_ne (h : c ≠ '\x7b') : fill params (c :: text) = c :: fill params text := by
  rw [fill, List.length_cons, substituteWithin, if_neg (by simpa using h), fill]

theorem fill_placeholder (h : placeholder? text = some (word, rest)) :
    fill params ('\x7b' :: text) = placeholderText params word ++ fill params rest := by
  have hLess := length_of_placeholder? h
  rw [fill, List.length_cons, substituteWithin, if_pos (by decide), h]
  simp only
  rw [substituteWithin_eq (Nat.le_of_lt hLess) (Nat.le_refl _), fill]

theorem fill_brace (h : placeholder? text = none) :
    fill params ('\x7b' :: text) = '\x7b' :: fill params text := by
  rw [fill, List.length_cons, substituteWithin, if_pos (by decide), h, fill]

/-- A template from its first character on: the ways in which it is read. -/
theorem template_cases (template : List Char) {motive : List Char → Prop} (nil : motive [])
    (plain : ∀ c text, c ≠ '\x7b' → motive text → motive (c :: text))
    (brace : ∀ text, placeholder? text = none → motive text → motive ('\x7b' :: text))
    (placeholder : ∀ text word rest, placeholder? text = some (word, rest) → motive rest →
      motive ('\x7b' :: text)) : motive template := by
  induction hLength : template.length using Nat.strongRecOn generalizing template with
  | _ n ih =>
    subst hLength
    cases template with
    | nil => exact nil
    | cons c text =>
      have hText : motive text := ih text.length (Nat.lt_succ_self _) text rfl
      by_cases hc : c = '\x7b'
      · subst hc
        cases hRead : placeholder? text with
        | none => exact brace text hRead hText
        | some read =>
          have hLess := length_of_placeholder? hRead
          refine placeholder text read.1 read.2 hRead (ih read.2.length ?_ read.2 rfl)
          rw [List.length_cons]
          omega
      · exact plain c text hc hText

/-- What stands before an opening brace is filled in apart from the rest. -/
theorem fill_append (before after : List Char) :
    fill params (before ++ '\x7b' :: after) =
      fill params before ++ fill params ('\x7b' :: after) := by
  induction before using template_cases with
  | nil => rfl
  | plain c text hc ih => rw [List.cons_append, fill_cons_of_ne hc, ih, fill_cons_of_ne hc]; rfl
  | brace text hText ih =>
    have hAll : placeholder? (text ++ '\x7b' :: after) = none := by
      rw [placeholder?_append, hText, Option.map_none]
    rw [List.cons_append, fill_brace hAll, ih, fill_brace hText]
    rfl
  | placeholder text word rest hText ih =>
    have hAll : placeholder? (text ++ '\x7b' :: after) = some (word, rest ++ '\x7b' :: after) := by
      rw [placeholder?_append, hText, Option.map_some]
    rw [List.cons_append, fill_placeholder hAll, ih, fill_placeholder hText, List.append_assoc]

/-- Text without an opening brace stays. -/
theorem fill_text_append (h : '\x7b' ∉ text) (rest : List Char) :
    fill params (text ++ rest) = text ++ fill params rest := by
  induction text with
  | nil => rfl
  | cons c text ih =>
    rw [List.mem_cons, not_or] at h
    rw [List.cons_append, fill_cons_of_ne (Ne.symm h.1), ih h.2, List.cons_append]

/-- Without parameters a template stays as it is. -/
theorem fill_no_params (template : List Char) : fill [] template = template := by
  induction template using template_cases with
  | nil => rfl
  | plain c text hc ih => rw [fill_cons_of_ne hc, ih]
  | brace text hText ih => rw [fill_brace hText, ih]
  | placeholder text word rest hText ih =>
    obtain ⟨-, -, rfl⟩ := placeholder?_eq_some_iff.mp hText
    rw [fill_placeholder hText, ih]
    simp [placeholderText]

/-! ### Segments -/

theorem lookup_eq_find? (params : Params) (name : String) :
    params.lookup name = (params.find? fun row => row.1 = name).map (·.2) := by
  induction params with
  | nil => rfl
  | cons row params ih =>
    obtain ⟨key, value⟩ := row
    by_cases hName : name = key
    · simp [hName]
    · have hKey : (name == key) = false := beq_eq_false_iff_ne.mpr hName
      simp [List.lookup_cons, hKey, ih, Ne.symm hName]

theorem placeholderText_eq (word : List Char) (notEmpty : word ≠ [])
    (isWord : ∀ c ∈ word, Text.isWordChar c = true) :
    placeholderText params word = (Segment.placeholder word notEmpty isWord).filled params := by
  rw [placeholderText, Segment.filled, lookup_eq_find?]
  cases params.find? fun row => row.1 = String.ofList word with
  | none => rfl
  | some row => rfl

theorem fill_segment_append (segment : Segment) (rest : List Char) :
    fill params (segment.source ++ rest) = segment.filled params ++ fill params rest := by
  cases segment with
  | text chars noBrace => exact fill_text_append noBrace rest
  | placeholder word notEmpty isWord =>
    have hRead : placeholder? (word ++ '\x7d' :: rest) = some (word, rest) :=
      placeholder?_eq_some_iff.mpr ⟨notEmpty, isWord, rfl⟩
    rw [Segment.source, List.cons_append, List.append_assoc, List.singleton_append,
      fill_placeholder hRead, placeholderText_eq word notEmpty isWord]

theorem fill_segments (segments : List Segment) :
    fill params (segments.flatMap Segment.source) = segments.flatMap (Segment.filled params) := by
  induction segments with
  | nil => rfl
  | cons segment segments ih =>
    rw [List.flatMap_cons, fill_segment_append, ih, List.flatMap_cons]

/-- Substitution fills in the segments of a template one by one, so that no text that was put in is
read for placeholders. In any template an opening brace that opens no placeholder stays, with what
is before it and what is behind it filled in apart; and without parameters every template stays. -/
theorem substitute_onePass (params : Params) :
    (∀ segments : List Segment,
      substitute params (String.ofList (segments.flatMap Segment.source)) =
        String.ofList (segments.flatMap (Segment.filled params))) ∧
      (∀ before after : List Char, ¬OpensPlaceholder after →
        substitute params (String.ofList (before ++ '\x7b' :: after)) =
          String.ofList ((substitute params (String.ofList before)).toList ++
            '\x7b' :: (substitute params (String.ofList after)).toList)) ∧
      ∀ template : String, substitute [] template = template := by
  refine ⟨fun segments => ?_, fun before after hAfter => ?_, fun template => ?_⟩
  · rw [substitute_eq, String.toList_ofList, fill_segments]
  · simp only [substitute_eq, String.toList_ofList]
    rw [fill_append, fill_brace (placeholder?_eq_none_iff.mpr hAfter)]
  · rw [substitute_eq, fill_no_params, String.ofList_toList]

/-- Braces in braces, a name that is not known, a repeated name and a value with a placeholder. -/
example : substitute [("min", .text "\x7bmax\x7d"), ("max", .text "9"), ("min", .text "0")]
    "\x7b\x7bmin\x7d\x7d \x7bmin \x7bother\x7d \x7bmax" =
      "\x7b\x7bmax\x7d\x7d \x7bmin \x7bother\x7d \x7bmax" := by cbv

end EntityGen.Form
