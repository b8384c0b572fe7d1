import EntityGen.Proofs.Form.Alike
import EntityGen.TypeScript.Ruleset

/-! Constraints of rearranged rules. They stand in chain order, whatever the order of a rule's
attributes in the document, and are written alike. -/

namespace EntityGen

namespace Form

open TypeScript

/-! ### Messages -/

variable {params others : Params}

theorem substitute_congr
    (h : ∀ word, placeholderText params word = placeholderText others word) (template : String) :
    substitute params template = substitute others template := by
  have hWithin (fuel : Nat) (text : List Char) :
      substituteWithin params fuel text = substituteWithin others fuel text := by
    induction fuel generalizing text with
    | zero => rfl
    | succ fuel ih =>
      cases text with
      | nil => rfl
      | cons c rest => simp only [substituteWithin, h, ih]
  rw [substitute, substitute, hWithin]

theorem placeholderText_number {x y : Number} (h : x.sourceText = y.sourceText) (name : String)
    (word : List Char) :
    placeholderText [(name, .number x)] word = placeholderText [(name, .number y)] word := by
  by_cases hWord : String.ofList word = name
  · simp [placeholderText, hWord, Param.display, h]
  · have hWord : (String.ofList word == name) = false := by simpa using hWord
    rw [placeholderText, placeholderText, List.lookup_cons, List.lookup_cons, hWord]

/-- Messages with numbers that are written alike are written alike, and are both localized or not. -/
theorem message?_number (rule : Rule) (key name : String) {x y : Number}
    (h : x.sourceText = y.sourceText) :
    messageArgument (rule.message? key [(name, .number x)]) =
        messageArgument (rule.message? key [(name, .number y)]) ∧
      isLocalized (rule.message? key [(name, .number x)]) =
        isLocalized (rule.message? key [(name, .number y)]) := by
  rw [Rule.message?, Rule.message?]
  split
  · simp [messageArgument, paramText, h, isLocalized]
  · rw [funext (substitute_congr (placeholderText_number h name))]
    exact ⟨rfl, rfl⟩

theorem Rule.Rearranged.message?_eq {rule other : Rule} (h : rule.Rearranged other) (key : String)
    (params : Params) : rule.message? key params = other.message? key params := by
  cases h with
  | mk _ _ _ _ hMessages hI18n =>
    rw [Rule.message?, Rule.message?, hI18n.lookup_eq, hMessages.lookup_eq]

/-! ### Constraints -/

/-- Two constraints are written alike after any chain, and have the same effect on imports. -/
structure Constraint.Alike (c d : Constraint) : Prop where
  call : ∀ wrapped, checkCall wrapped (messageArgument c.message) c.check =
    checkCall wrapped (messageArgument d.message) d.check
  wraps : wrapsChain c.check = wrapsChain d.check
  custom : c.check.isCustom = d.check.isCustom
  localized : isLocalized c.message = isLocalized d.message

theorem Constraint.Alike.refl (c : Constraint) : Alike c c := ⟨fun _ => rfl, rfl, rfl, rfl⟩

theorem Constraint.Alike.rel (c : Option Constraint) : Option.Rel Alike c c := by
  cases c with
  | none => exact .none
  | some c => exact .some (.refl c)

variable {rule other : Rule}

theorem Rule.Rearranged.constraint? (h : rule.Rearranged other) (known : Attribute) :
    Option.Rel Constraint.Alike (rule.constraint? known) (other.constraint? known) := by
  have hMessage := h.message?_eq
  cases h with
  | mk _ hFlag hBound hPattern =>
    cases known with
    | flag f =>
      rw [Rule.constraint?, Rule.constraint?, hFlag, hMessage]
      exact Constraint.Alike.rel _
    | pattern p =>
      simp only [Rule.constraint?, hPattern, hMessage]
      exact Constraint.Alike.rel _
    | bound b =>
      simp only [Rule.constraint?, hMessage]
      have hNumbers := hBound b
      generalize rule.bound b = first at hNumbers
      generalize other.bound b = second at hNumbers
      cases hNumbers with
      | none => exact .none
      | @some x y hSame =>
        have hText := Number.sourceText_eq hSame
        obtain ⟨hArgument, hLocalized⟩ := message?_number other b.name b.name hText
        exact .some ⟨fun wrapped => by simp only [checkCall, hArgument, hText], rfl, rfl, hLocalized⟩
    | _ => exact .none

theorem Rule.Rearranged.resolvedType_eq (h : rule.Rearranged other) :
    rule.resolvedType = other.resolvedType := by
  cases h with
  | mk hType => rw [Rule.resolvedType, Rule.resolvedType, hType]

/-- Rearranged rules have constraints that are written alike, one by one. -/
theorem Rule.Rearranged.constraints (h : rule.Rearranged other) :
    List.Forall₂ Constraint.Alike rule.constraints other.constraints := by
  have hNullable : rule.nullable? = other.nullable? := by
    cases h with
    | mk _ hFlag => rw [Rule.nullable?, Rule.nullable?, hFlag]
  have hPresence : rule.presence? = other.presence? := by
    rw [Rule.presence?, Rule.presence?, h.resolvedType_eq, h.message?_eq]
    cases h with
    | mk _ hFlag => rw [hFlag]
  have hToList {c d : Option Constraint} (h : Option.Rel Constraint.Alike c d) :
      List.Forall₂ Constraint.Alike c.toList d.toList := by
    cases h with
    | none => exact .nil
    | some h => exact .cons h .nil
  rw [Rule.constraints, Rule.constraints, hNullable, hPresence, h.resolvedType_eq]
  refine List.rel_append (List.rel_append (List.rel_append ?_ (hToList (h.constraint? _)))
    (hToList (Constraint.Alike.rel _))) (hToList (Constraint.Alike.rel _))
  exact List.rel_filterMap (R := Eq) (fun _ _ hSame => hSame ▸ h.constraint? _)
    (List.forall₂_refl _)

theorem constraintCalls_eq {constraints others : List Constraint}
    (h : List.Forall₂ Constraint.Alike constraints others) (wrapped : Bool) :
    constraintCalls wrapped constraints = constraintCalls wrapped others := by
  induction h generalizing wrapped with
  | nil => rfl
  | cons hFirst _ ih =>
    rw [constraintCalls, constraintCalls, hFirst.call, hFirst.wraps, ih]

end Form

end EntityGen
