import EntityGen.Proofs.Form.Chain

/-! Chains that rules compile to. Bounds on items stand in the chains of arrays only, a least length
of one only at the end of the chain of a text, where a text that may be missing says so instead, and
what shows no message has none. -/

namespace EntityGen.Form

/-! ### Constraints of a chain -/

/-- Whether a bound is one on the number of items of an array. -/
def Bound.countsItems : Bound → Bool
  | .minItems => true
  | .maxItems => true
  | _ => false

/-- Whether a check is written without its message. -/
def Check.silent : Check → Bool
  | .flag .nullable => true
  | .optional => true
  | _ => false

/-- A check that may stand before the last, in the chain of an array (`items`) or of another base
type. -/
def Check.Ordinary (items : Bool) : Check → Prop
  | .bound b _ => b.countsItems = items
  | .optional => False
  | .requiredMin => False
  | _ => True

def Constraint.Quiet (c : Constraint) : Prop := c.check.silent = true → c.message = none

/-- The constraints that a chain may have, in order, for texts (`text`), arrays (`items`) and other
values. -/
inductive Allowed (text items : Bool) : List Constraint → Prop
  | nil (h : text = false) : Allowed text items []
  | last {c : Constraint} (check : c.check = .optional ∨ (text = true ∧ c.check = .requiredMin))
      (quiet : c.Quiet) : Allowed text items [c]
  | cons {c : Constraint} {cs : List Constraint} (check : c.check.Ordinary items)
      (quiet : c.Quiet) (rest : Allowed text items cs) : Allowed text items (c :: cs)

variable {text items : Bool}

theorem Allowed.append {first rest : List Constraint}
    (h : ∀ c ∈ first, c.check.Ordinary items ∧ c.Quiet) (hRest : Allowed text items rest) :
    Allowed text items (first ++ rest) := by
  induction first with
  | nil => exact hRest
  | cons c first ih =>
    obtain ⟨⟨hCheck, hQuiet⟩, hFirst⟩ := List.forall_mem_cons.mp h
    exact .cons hCheck hQuiet (ih hFirst)

def Base.isString : Base → Bool
  | .string => true
  | _ => false

def Base.isArray : Base → Bool
  | .array _ => true
  | _ => false

/-- A chain whose constraints are allowed, at every depth. -/
inductive Chain.Tidy : Chain → Prop
  | mk {base : Base} {message : Option Message} {cs : List Constraint}
      (item : ∀ chain, base = .array chain → Tidy chain)
      (properties : ∀ rows, base = .object rows → ∀ row ∈ rows, Tidy row.2)
      (constraints : Allowed base.isString base.isArray cs) : Tidy (.mk base message cs)

/-! ### Chains of rules -/

/-- An attribute that gives an ordinary check. -/
def Attribute.suits (items : Bool) : Attribute → Bool
  | .flag f => f != .nullable
  | .bound b => b.countsItems == items
  | _ => true

theorem constraint?_ordinary {rule : Rule} {known : Attribute} {c : Constraint}
    (hSuits : known.suits items = true) (h : rule.constraint? known = some c) :
    c.check.Ordinary items ∧ c.Quiet := by
  cases known with
  | flag f =>
    obtain ⟨-, h⟩ := Option.ite_none_right_eq_some.mp h
    obtain rfl := Option.some.inj h
    refine ⟨trivial, fun hSilent => ?_⟩
    cases f with
    | nullable => cases hSuits
    | _ => cases hSilent
  | bound b =>
    obtain ⟨x, -, rfl⟩ := Option.map_eq_some_iff.mp h
    exact ⟨eq_of_beq hSuits, fun hSilent => by cases hSilent⟩
  | pattern p =>
    obtain ⟨s, -, rfl⟩ := Option.map_eq_some_iff.mp h
    exact ⟨trivial, fun hSilent => by cases hSilent⟩
  | _ => cases h

theorem attributes_suit (rule : Rule) :
    ∀ known ∈ rule.resolvedType.attributes, known.suits rule.base.isArray = true := by
  rw [Rule.base]
  cases rule.resolvedType with
  | string => simp only [RuleType.attributes, Base.isArray]; decide
  | number => simp only [RuleType.attributes, Base.isArray]; decide
  | array => simp only [RuleType.attributes, Base.isArray]; decide
  | _ => exact fun _ hKnown => absurd hKnown List.not_mem_nil

theorem presence?_allowed (rule : Rule) :
    Allowed rule.base.isString items rule.presence?.toList := by
  have hText : rule.base.isString = true ↔ rule.resolvedType = .string := by
    rw [Rule.base]
    cases rule.resolvedType <;> simp [Base.isString]
  rw [Rule.presence?]
  split
  · exact .last (.inl rfl) fun _ => rfl
  · split
    · rename_i hString
      exact .last (.inr ⟨hText.mpr hString, rfl⟩) fun hSilent => by cases hSilent
    · rename_i hOther
      exact .nil (Bool.eq_false_iff.mpr fun h => hOther (hText.mp h))

theorem Rule.constraints_allowed (rule : Rule) :
    Allowed rule.base.isString rule.base.isArray rule.constraints := by
  rw [Rule.constraints]
  refine .append (fun c hc => ?_) (presence?_allowed rule)
  rw [List.mem_append, List.mem_append, List.mem_filterMap, Option.mem_toList, Option.mem_toList]
    at hc
  rcases hc with (⟨known, hKnown, hc⟩ | hc) | hc
  · exact constraint?_ordinary (attributes_suit rule known hKnown) hc
  · exact constraint?_ordinary rfl hc
  · obtain ⟨-, hc⟩ := Option.ite_none_right_eq_some.mp hc
    obtain rfl := Option.some.inj hc
    exact ⟨trivial, fun _ => rfl⟩

mutual

theorem compile_tidy : ∀ rule : Rule, (compile rule).Tidy
  | ⟨type, flag, bound, pattern, messages, i18n, item, properties⟩ => by
    have hItem := compileItem_tidy item
    have hProperties := compileProperties_tidy properties
    rw [compile_eq]
    refine .mk (fun chain hBase => ?_) (fun rows hBase => ?_) (Rule.constraints_allowed _)
    · rw [Rule.base] at hBase
      split at hBase <;> cases hBase
      exact hItem
    · rw [Rule.base] at hBase
      split at hBase <;> cases hBase
      exact hProperties

theorem compileItem_tidy : ∀ item : Option Rule, (compileItem item).Tidy
  | none => by
    rw [compileItem, Chain.any]
    exact .mk (fun _ hBase => nomatch hBase) (fun _ hBase => nomatch hBase) (.nil rfl)
  | some rule => compile_tidy rule

theorem compileProperties_tidy :
    ∀ properties : List (String × Rule), ∀ row ∈ compileProperties properties, row.2.Tidy
  | [] => fun _ hRow => nomatch hRow
  | (_, rule) :: rest =>
    List.forall_mem_cons.mpr ⟨compile_tidy rule, compileProperties_tidy rest⟩

end

end EntityGen.Form
