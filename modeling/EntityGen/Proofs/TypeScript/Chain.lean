import EntityGen.Proofs.TypeScript.Check

/-! The chain of a rule is known from the code it is written as. -/

namespace EntityGen.TypeScript

open Form

variable {kind : Char → Bool} {depth : Nat}

/-! ### Base types -/

def baseMethod : Base → String
  | .string => "string"
  | .number => "number"
  | .boolean => "boolean"
  | .date => "date"
  | .array _ => "array"
  | .object _ => "object"
  | .any => "any"

/-- The properties of an object between braces. -/
def objectText (depth : Nat) (properties : List (String × Chain)) : String :=
  openBrace ++ "\n" ++ propertiesText depth properties ++ indentation depth ++ closeBrace

def baseArgument (depth : Nat) (message : String) : Base → String
  | .array item => arguments (chainText depth item) message
  | .object properties => arguments (objectText depth properties) message
  | .any => ""
  | _ => message

theorem baseText_eq (depth : Nat) (message : String) (base : Base) :
    baseText depth message base = "z" ++ call (baseMethod base) (baseArgument depth message base) := by
  cases base <;> rfl

/-- Two base types that have one method. -/
inductive SameBase : Base → Base → Prop
  | string : SameBase .string .string
  | number : SameBase .number .number
  | boolean : SameBase .boolean .boolean
  | date : SameBase .date .date
  | array (a b : Chain) : SameBase (.array a) (.array b)
  | object (a b : List (String × Chain)) : SameBase (.object a) (.object b)
  | any : SameBase .any .any

theorem sameBase {a b : Base} (h : baseMethod a = baseMethod b) : SameBase a b := by
  cases a <;> cases b <;> simp [baseMethod] at h <;> constructor

theorem isAlpha_baseMethod (base : Base) : ∀ c ∈ (baseMethod base).toList, c.isAlpha = true := by
  rw [← List.all_eq_true]
  cases base <;> simp only [baseMethod] <;> decide

/-- A base type is read if what is inside it is. -/
theorem baseText_reveals {a b : Base} (m n : Option Message)
    (hItem : ∀ x y, a = .array x → b = .array y →
      Reveals (· == '.') (chainText depth x).toList (chainText depth y).toList (x.Matches y))
    (hObject : ∀ x y, a = .object x → b = .object y →
      Reveals (fun _ => false) (objectText depth x).toList (objectText depth y).toList
        (PropertiesMatch x y)) :
    Reveals kind (baseText depth (messageArgument m) a).toList
      (baseText depth (messageArgument n) b).toList
      (a.Matches b ∧ (a = .any ∨ Option.Rel Message.Matches m n)) := by
  have hMessage : Reveals kind ((messageArgument m).toList ++ [')'])
      ((messageArgument n).toList ++ [')']) (Option.Rel Message.Matches m n) :=
    (messageArgument_reveals m n).before [')'] (by decide)
  rw [baseText_eq, baseText_eq, String.toList_append, String.toList_append]
  refine ((call_reveals (isAlpha_baseMethod a) (isAlpha_baseMethod b) fun hName => ?_).imp
    And.right).after _
  cases sameBase hName with
  | string => exact hMessage.imp fun h => ⟨.string, .inr h⟩
  | number => exact hMessage.imp fun h => ⟨.number, .inr h⟩
  | boolean => exact hMessage.imp fun h => ⟨.boolean, .inr h⟩
  | date => exact hMessage.imp fun h => ⟨.date, .inr h⟩
  | array x y =>
    exact (arguments_reveal (hItem x y rfl rfl) rfl rfl m n).imp fun h => ⟨.array h.1, .inr h.2⟩
  | object x y =>
    exact (arguments_reveal (hObject x y rfl rfl) rfl rfl m n).imp fun h => ⟨.object h.1, .inr h.2⟩
  | any => exact .same ⟨.any, .inl rfl⟩

/-! ### Properties -/

/-- The property of an object, on its line. -/
def propertyLine (depth : Nat) (row : String × Chain) : List Char :=
  (propertyKey row.1).toList ++ ':' :: ' ' :: ((chainText (depth + 1) row.2).toList ++ [',', '\n'])

theorem propertiesText_cons (depth : Nat) (row : String × Chain) (rest : List (String × Chain)) :
    (propertiesText depth (row :: rest)).toList =
      (indentation depth).toList ++
        ' ' :: ' ' :: (propertyLine depth row ++ (propertiesText depth rest).toList) := by
  have hIndentation : (indentation (depth + 1)).toList = (indentation depth).toList ++ [' ', ' '] := by
    simp [indentation, Nat.mul_add, List.replicate_add]
  simp [propertiesText, hIndentation, propertyLine]

theorem propertyLine_reveals (a b : String × Chain)
    (h : Reveals (· == '.') (chainText (depth + 1) a.2).toList (chainText (depth + 1) b.2).toList
      (a.2.Matches b.2)) :
    Reveals kind (propertyLine depth a) (propertyLine depth b) (a.1 = b.1 ∧ a.2.Matches b.2) := by
  have hKeys : Reveals (fun _ => false) _ _ _ :=
    (propertyKey_reveals a.1 b.1).before [':', ' '] (by decide)
  have hChains : Reveals kind _ _ _ := h.before [',', '\n'] (by decide)
  simpa [propertyLine] using hKeys.andThen fun _ => hChains

/-- The characters of an object's properties with the brace that ends them. -/
def propertiesChars (depth : Nat) (properties : List (String × Chain)) : List Char :=
  (propertiesText depth properties).toList ++ (indentation depth ++ closeBrace).toList

/-- The brace that ends an object is indented less than its properties. -/
theorem propertiesChars_apart (row : String × Chain) (rest : List (String × Chain)) :
    Reveals kind (propertiesChars depth []) (propertiesChars depth (row :: rest)) False := by
  rw [propertiesChars, propertiesChars, propertiesText_cons, propertiesText, String.toList_append,
    List.append_assoc, String.toList_empty, List.nil_append]
  exact .after _ (.of_head_ne (c := '\x7d') (d := ' ') (by decide))

theorem propertiesChars_reveal (first second : List (String × Chain))
    (h : ∀ a ∈ first, ∀ b ∈ second,
      Reveals (· == '.') (chainText (depth + 1) a.2).toList (chainText (depth + 1) b.2).toList
        (a.2.Matches b.2)) :
    Reveals kind (propertiesChars depth first) (propertiesChars depth second)
      (PropertiesMatch first second) := by
  induction first generalizing second with
  | nil =>
    cases second with
    | nil => exact .same .nil
    | cons b second => exact (propertiesChars_apart b second).imp False.elim
  | cons a first ih =>
    cases second with
    | nil => exact (propertiesChars_apart a first).symm.imp False.elim
    | cons b second =>
      have hLine : Reveals (fun _ => false) (propertyLine depth a) (propertyLine depth b) _ :=
        propertyLine_reveals a b (h a List.mem_cons_self b List.mem_cons_self)
      have hRest := ih second fun x hx y hy =>
        h x (List.mem_cons_of_mem a hx) y (List.mem_cons_of_mem b hy)
      have hRows := (hLine.andThen fun _ => hRest).after ((indentation depth).toList ++ [' ', ' '])
      rw [propertiesChars, propertiesChars, propertiesText_cons, propertiesText_cons]
      simp only [propertiesChars, List.append_assoc, List.cons_append, List.nil_append] at hRows ⊢
      refine hRows.imp ?_
      rintro ⟨⟨hName, hChain⟩, hProperties⟩
      obtain ⟨name, x⟩ := a
      obtain ⟨other, y⟩ := b
      obtain rfl : name = other := hName
      exact .cons hChain hProperties

theorem objectText_toList (depth : Nat) (properties : List (String × Chain)) :
    (objectText depth properties).toList =
      (openBrace ++ "\n").toList ++ propertiesChars depth properties := by
  simp [objectText, propertiesChars]

/-! ### Chains -/

/-- The text of a tidy chain is followed by its end only, whatever texts are inside. -/
theorem chainText_reveals {a b : Chain} (ha : a.Tidy) (hb : b.Tidy) (depth : Nat) :
    Reveals (· == '.') (chainText depth a).toList (chainText depth b).toList (a.Matches b) := by
  induction ha generalizing b depth with
  | @mk base message cs _ _ hConstraints hItem hProperties =>
    cases hb with
    | @mk other otherMessage ds hOtherItem hOtherProperties hOthers =>
      have hBase : Reveals (fun _ => false) (baseText depth (messageArgument message) base).toList
          (baseText depth (messageArgument otherMessage) other).toList _ :=
        baseText_reveals message otherMessage
          (fun x y hx hy => hItem x hx (hOtherItem y hy) depth)
          (fun x y hx hy => by
            rw [objectText_toList, objectText_toList]
            exact (propertiesChars_reveal x y fun row hRow next hNext =>
              hProperties x hx row hRow (hOtherProperties y hy next hNext) (depth + 1)).after _)
      simp only [chainText, String.toList_append]
      refine (hBase.andThen fun _ => constraintCalls_reveal false cs ds).imp ?_
      rintro ⟨⟨hSame, hMessage⟩, hCalls⟩
      refine .mk hSame hMessage (hCalls.matches hConstraints ?_)
      cases hSame <;> exact hOthers

/-! ### Chains that match -/

theorem paramText_eq {a b : Param} (h : a.Matches b) : paramText a = paramText b := by
  cases h with
  | number hText => exact hText
  | text => rfl

theorem messageText_eq {m n : Message} (h : m.Matches n) : messageText m = messageText n := by
  cases h with
  | literal => rfl
  | @localized key first second hParams =>
    have hRows : first.map paramRow = second.map paramRow := by
      induction hParams with
      | nil => rfl
      | cons hRow _ ih =>
        rw [List.map_cons, List.map_cons, ih, paramRow, paramRow, hRow.1, paramText_eq hRow.2]
    have hText : paramsText first = paramsText second := by
      cases hParams with
      | nil => rfl
      | cons _ _ => rw [paramsText, paramsText, hRows]
    rw [messageText, messageText, hText]

theorem messageArgument_eq {m n : Option Message} (h : Option.Rel Message.Matches m n) :
    messageArgument m = messageArgument n := by
  cases h with
  | none => rfl
  | some h =>
    rw [← String.toList_inj, messageArgument_some, messageArgument_some, messageText_eq h]

theorem isLocalized_eq {m n : Option Message} (h : Option.Rel Message.Matches m n) :
    isLocalized m = isLocalized n := by
  cases h with
  | none => rfl
  | some h => cases h <;> rfl

theorem alike_of_matches {c d : Constraint} (h : c.Matches d) : Constraint.Alike c d := by
  obtain ⟨check, message⟩ := c
  obtain ⟨other, otherMessage⟩ := d
  obtain ⟨hCheck, hMessage⟩ := h
  refine ⟨fun wrapped => ?_, ?_, ?_, isLocalized_eq hMessage⟩
  · rw [messageArgument_eq hMessage]
    cases hCheck with
    | bound hText => simp only [checkCall, hText]
    | _ => rfl
  · cases hCheck <;> rfl
  · cases hCheck <;> rfl

mutual

theorem chainText_eq (depth : Nat) : ∀ {a b : Chain}, a.Matches b →
    chainText depth a = chainText depth b
  | _, _, .mk hBase hMessage hConstraints => by
    rw [chainText, chainText, constraintCalls_eq (hConstraints.imp fun _ _ => alike_of_matches)]
    rcases hMessage with rfl | hMessage
    · cases hBase
      rfl
    · rw [messageArgument_eq hMessage, baseText_congr depth _ hBase]

theorem baseText_congr (depth : Nat) (message : String) : ∀ {a b : Base}, a.Matches b →
    baseText depth message a = baseText depth message b
  | _, _, .string => rfl
  | _, _, .number => rfl
  | _, _, .boolean => rfl
  | _, _, .date => rfl
  | _, _, .array hItem => by rw [baseText, baseText, chainText_eq depth hItem]
  | _, _, .object hProperties => by rw [baseText, baseText, propertiesText_eq depth hProperties]
  | _, _, .any => rfl

theorem propertiesText_eq (depth : Nat) : ∀ {a b : List (String × Chain)}, PropertiesMatch a b →
    propertiesText depth a = propertiesText depth b
  | _, _, .nil => rfl
  | _, _, .cons hChain hRest => by
    rw [propertiesText, propertiesText, chainText_eq (depth + 1) hChain,
      propertiesText_eq depth hRest]

end

/-- The code of a rule's chain determines the chain, at every depth of nesting: two rules are written
alike if and only if their chains match. -/
theorem chainText_compile_eq_iff (depth : Nat) (first second : Rule) :
    chainText depth (compile first) = chainText depth (compile second) ↔
      (compile first).Matches (compile second) := by
  constructor
  · intro hText
    have hReveals := chainText_reveals (compile_tidy first) (compile_tidy second) depth
    exact (hReveals ends_nil ends_nil (by rw [hText])).1
  · exact chainText_eq depth

/-- A text that looks like the end of its call and the start of another stays inside its literal. -/
example :
    let rule : Rule := { pattern := fun p => if p = .includes then some "').email('" else none }
    chainText 0 (compile rule) = "z.string().includes('\\').email(\\'').optional()" := by
  decide

end EntityGen.TypeScript
