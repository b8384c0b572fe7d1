import EntityGen.Proofs.Form.Constraint
import EntityGen.Proofs.TypeScript.Text

/-! What the chain of a rule shows of the order in the document: the order of the properties of
objects, at every depth that the chain reaches. -/

namespace EntityGen.Form

open TypeScript

/-! ### Chains of rules -/

/-- The base type of a rule's chain. -/
def Rule.base (rule : Rule) : Base :=
  match rule.resolvedType with
  | .string => .string
  | .number => .number
  | .boolean => .boolean
  | .date => .date
  | .array => .array (compileItem rule.item)
  | .object => .object (compileProperties rule.properties)
  | .unknown _ => .any

theorem compile_eq (rule : Rule) :
    compile rule = .mk rule.base (rule.message? "type" []) rule.constraints := by
  cases rule
  rw [compile]
  rfl

/-- The characters of a rule's chain. -/
def chainChars (depth : Nat) (rule : Rule) : List Char := (chainText depth (compile rule)).toList

/-- The characters of the chain of an array's items. -/
def itemChars (depth : Nat) (item : Option Rule) : List Char :=
  (chainText depth (compileItem item)).toList

/-- The characters of an object's property. -/
def propertyChars (depth : Nat) (row : String × Rule) : List Char :=
  (indentation (depth + 1)).toList ++
    ((propertyKey row.1).toList ++ ':' :: ' ' :: (chainChars (depth + 1) row.2 ++ [',', '\n']))

theorem propertyChars_keyFirst (depth : Nat) :
    KeyFirst (indentation (depth + 1)).toList (propertyChars depth) :=
  fun _ => ⟨':', _, by decide, rfl⟩

theorem propertiesText_toList (depth : Nat) (properties : List (String × Rule)) :
    (propertiesText depth (compileProperties properties)).toList =
      properties.flatMap (propertyChars depth) := by
  induction properties with
  | nil => rfl
  | cons row rest ih =>
    obtain ⟨name, rule⟩ := row
    rw [compileProperties, propertiesText, List.flatMap_cons, ← ih]
    simp [propertyChars, chainChars]

theorem arguments_eq (second : String) : ∃ rest, ∀ first, arguments first second = first ++ rest := by
  by_cases hEmpty : second.isEmpty
  · exact ⟨"", fun first => by rw [arguments, if_pos hEmpty, String.append_empty]⟩
  · exact ⟨", " ++ second, fun first => by
      rw [arguments, if_neg hEmpty, String.append_assoc]⟩

variable {rule other : Rule}

/-- The chains of rearranged rules differ in the chain of the items, or in those of the properties,
or not at all. -/
theorem chainChars_cases (h : rule.Rearranged other) (depth : Nat) :
    (rule.resolvedType = .array ∧ ∃ p q,
      chainChars depth rule = p ++ (itemChars depth rule.item ++ q) ∧
      chainChars depth other = p ++ (itemChars depth other.item ++ q)) ∨
    (rule.resolvedType = .object ∧ ∃ p q,
      chainChars depth rule = p ++ (rule.properties.flatMap (propertyChars depth) ++ q) ∧
      chainChars depth other = p ++ (other.properties.flatMap (propertyChars depth) ++ q)) ∨
    (rule.resolvedType ≠ .array ∧ rule.resolvedType ≠ .object ∧
      chainChars depth rule = chainChars depth other) := by
  have hCalls := constraintCalls_eq h.constraints false
  have hType := h.resolvedType_eq
  obtain ⟨rest, hRest⟩ := arguments_eq (messageArgument (other.message? "type" []))
  simp only [chainChars, compile_eq, chainText, h.message?_eq, hCalls, Rule.base]
  cases hRule : rule.resolvedType with
  | array =>
    rw [hRule] at hType
    simp only [← hType, baseText, call, hRest]
    refine .inl ⟨trivial, "z.array(".toList,
      (rest ++ ")" ++ constraintCalls false other.constraints).toList, ?_, ?_⟩ <;>
      simp [itemChars]
  | object =>
    rw [hRule] at hType
    simp only [← hType, baseText, call, hRest]
    refine .inr (.inl ⟨trivial, ("z.object(" ++ openBrace ++ "\n").toList,
      (indentation depth ++ closeBrace ++ rest ++ ")" ++
        constraintCalls false other.constraints).toList, ?_, ?_⟩) <;>
      simp [propertiesText_toList]
  | _ =>
    rw [hRule] at hType
    simp [← hType]

theorem Rule.Rearranged.properties_shuffled (h : rule.Rearranged other) :
    Shuffled Rule.Rearranged rule.properties other.properties := by
  cases h with
  | mk _ _ _ _ _ _ _ _ names nodup properties => exact ⟨names, nodup, properties⟩

theorem itemChars_congr {P : List Char → List Char → Prop} (hRefl : ∀ chars, P chars chars)
    {item otherItem : Option Rule} (hasItem : item.isSome = otherItem.isSome) (depth : Nat)
    (h : ∀ i j, item = some i → otherItem = some j → P (chainChars depth i) (chainChars depth j)) :
    P (itemChars depth item) (itemChars depth otherItem) := by
  cases item <;> cases otherItem <;> simp at hasItem
  · exact hRefl _
  · exact h _ _ rfl rfl

/-- The chains of rearranged rules have the same length. -/
theorem length_chainChars (h : rule.Rearranged other) (depth : Nat) :
    (chainChars depth rule).length = (chainChars depth other).length := by
  induction h generalizing depth with
  | @mk rule other type flag bound pattern messages i18n hasItem item names nodup properties
      hItem hProperties =>
    have h := Rule.Rearranged.mk type flag bound pattern messages i18n hasItem item names nodup
      properties
    rcases chainChars_cases h depth with ⟨-, p, q, hRule, hOther⟩ | ⟨-, p, q, hRule, hOther⟩ |
      ⟨-, -, hSame⟩
    · have hItems : (itemChars depth rule.item).length = (itemChars depth other.item).length :=
        itemChars_congr (P := fun a b => a.length = b.length) (fun _ => rfl) hasItem depth
          fun i j hi hj => hItem i j hi hj depth
      rw [hRule, hOther]
      simp only [List.length_append, hItems]
    · have hShuffled : Shuffled
          (fun x y => (chainChars (depth + 1) x).length = (chainChars (depth + 1) y).length)
          rule.properties other.properties :=
        ⟨names, nodup, fun name x y hx hy => hProperties name x y hx hy (depth + 1)⟩
      have hLength : (rule.properties.flatMap (propertyChars depth)).length = _ :=
        hShuffled.length_flatMap fun name x y hLength => by
          simp only [propertyChars, List.length_append, List.length_cons, hLength]
      rw [hRule, hOther]
      simp only [List.length_append, hLength]
    · rw [hSame]

/-- The properties of the objects in two rules have the same order, wherever the chains of the rules
reach them: in the items of arrays and the properties of objects. -/
inductive Rule.InOrder : Rule → Rule → Prop
  | mk {rule other : Rule}
      (item : rule.resolvedType = .array →
        ∀ i j, rule.item = some i → other.item = some j → InOrder i j)
      (names : rule.resolvedType = .object →
        rule.properties.map (·.1) = other.properties.map (·.1))
      (properties : rule.resolvedType = .object → ∀ name p q, (name, p) ∈ rule.properties →
        (name, q) ∈ other.properties → InOrder p q) : InOrder rule other

theorem propertyChars_inj {depth : Nat} {name : String} {p q : Rule} :
    propertyChars depth (name, p) = propertyChars depth (name, q) ↔
      chainChars (depth + 1) p = chainChars (depth + 1) q := by
  simp [propertyChars]

/-- The chains of rearranged rules are written alike if and only if the rules are in order. -/
theorem chainChars_eq_iff (h : rule.Rearranged other) (depth : Nat) :
    chainChars depth rule = chainChars depth other ↔ rule.InOrder other := by
  induction h generalizing depth with
  | @mk rule other type flag bound pattern messages i18n hasItem item names nodup properties
      hItem hProperties =>
    have h := Rule.Rearranged.mk type flag bound pattern messages i18n hasItem item names nodup
      properties
    rcases chainChars_cases h depth with ⟨hType, p, q, hRule, hOther⟩ |
      ⟨hType, p, q, hRule, hOther⟩ | ⟨hNoArray, hNoObject, hSame⟩
    · rw [hRule, hOther, List.append_cancel_left_eq, List.append_cancel_right_eq]
      constructor
      · intro hText
        refine .mk (fun _ i j hi hj => (hItem i j hi hj depth).mp ?_) (by simp [hType])
          (by simp [hType])
        rwa [hi, hj] at hText
      · rintro ⟨hOrder, -, -⟩
        exact itemChars_congr (P := Eq) (fun _ => rfl) hasItem depth fun i j hi hj =>
          (hItem i j hi hj depth).mpr (hOrder hType i j hi hj)
    · rw [hRule, hOther, List.append_cancel_left_eq, List.append_cancel_right_eq,
        (propertyChars_keyFirst depth).flatMap_eq_iff h.properties_shuffled fun name x y h => by
          simp only [propertyChars, List.length_append, List.length_cons, length_chainChars h]]
      constructor
      · rintro ⟨hNames, hLines⟩
        refine .mk (by simp [hType]) (fun _ => hNames) fun _ name x y hx hy => ?_
        exact (hProperties name x y hx hy _).mp (propertyChars_inj.mp (hLines name x y hx hy))
      · rintro ⟨-, hNames, hOrder⟩
        refine ⟨hNames hType, fun name x y hx hy => propertyChars_inj.mpr ?_⟩
        exact (hProperties name x y hx hy _).mpr (hOrder hType name x y hx hy)
    · exact ⟨fun _ => .mk (fun h => absurd h hNoArray) (fun h => absurd h hNoObject)
        (fun h => absurd h hNoObject), fun _ => hSame⟩

end EntityGen.Form
