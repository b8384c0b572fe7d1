import EntityGen.Proofs.Form.Numbers
import EntityGen.Proofs.TypeScript.Numeral
import EntityGen.Proofs.TypeScript.Uses

/-! The numbers that are written in the schemas of a ruleset. Numbers are the only arguments and the
only properties, at any depth, that are one word with a sign or without. -/

namespace EntityGen.TypeScript

open Form

/-! ### Numbers in code -/

/-- An operand is at its end, before a comma or at the end of its group. -/
def endsOperand : Option Tree → Bool
  | none => true
  | some (.atom (.mark ',')) => true
  | _ => false

/-- What is in front of a word in an operand that has nothing else yet: nothing or a minus. -/
def signAfter (sign : Option String) : Tree → Option String
  | .atom (.mark c) =>
    if c = ',' ∨ c = ':' then some "" else if c = '-' ∧ sign = some "" then some "-" else none
  | _ => none

/-- A word that makes an operand of its own, with its sign. -/
def operand? (sign : Option String) (tree : Tree) (next : Option Tree) : Option String :=
  match sign, tree with
  | some sign, .atom (.word text) => if endsOperand next then some (sign ++ text) else none
  | _, _ => none

mutual

def numeralsInside : Tree → List String
  | .atom _ => []
  | .group _ inside => numerals (some "") inside

/-- The operands in trees that are one word, at any depth. Operands are arguments and the values of
properties. -/
def numerals : Option String → List Tree → List String
  | _, [] => []
  | sign, tree :: rest =>
    (operand? sign tree rest.head?).toList ++ numeralsInside tree ++
      numerals (signAfter sign tree) rest

end

/-! ### Pieces of code -/

/-- The numerals in some operands, which end there, are some texts. -/
def Writes (trees : List Tree) (texts : List String) : Prop :=
  ∀ rest, endsOperand rest.head? = true →
    numerals (some "") (trees ++ rest) = texts ++ numerals none rest

variable {first second : List Tree} {texts more : List String}

theorem numerals_comma (sign : Option String) (rest : List Tree) :
    numerals sign (markTree ',' :: rest) = numerals (some "") rest := by
  cases sign <;> simp [numerals, markTree, operand?, numeralsInside, signAfter]

theorem numerals_call (call : Call) (rest : List Tree) : numerals none (call.trees ++ rest) =
    numerals (some "") call.arguments ++ numerals none rest := by
  simp [Call.trees, numerals, markTree, wordTree, operand?, numeralsInside, signAfter]

theorem numerals_calls (calls : List Call) (rest : List Tree) :
    numerals none (calls.flatMap Call.trees ++ rest) =
      calls.flatMap (fun call => numerals (some "") call.arguments) ++ numerals none rest := by
  induction calls with
  | nil => rfl
  | cons call others ih =>
    rw [List.flatMap_cons, List.append_assoc, numerals_call, ih, List.flatMap_cons,
      List.append_assoc]

namespace Writes

theorem numerals_eq (h : Writes first texts) : numerals (some "") first = texts := by
  have hAll := h [] rfl
  rw [List.append_nil, numerals, List.append_nil] at hAll
  exact hAll

theorem nil : Writes [] [] := by
  intro rest hRest
  rw [List.nil_append, List.nil_append]
  cases rest with
  | nil => rfl
  | cons tree rest =>
    rw [List.head?_cons, endsOperand.eq_def] at hRest
    split at hRest
    · rename_i hNone
      cases hNone
    · rename_i hSame
      obtain rfl := Option.some.inj hSame
      exact (numerals_comma _ _).trans (numerals_comma _ _).symm
    · cases hRest

theorem comma (h : Writes first texts) (hMore : Writes second more) :
    Writes (first ++ markTree ',' :: second) (texts ++ more) := by
  intro rest hRest
  rw [List.append_assoc, List.cons_append, h _ rfl, numerals_comma, hMore rest hRest,
    List.append_assoc]

/-- A key and a colon before a value. -/
theorem key (name : String) (h : Writes first texts) :
    Writes (keyTree name :: markTree ':' :: first) texts := by
  intro rest hRest
  rw [keyTree]
  split <;>
    simp [numerals, markTree, wordTree, literalTree, operand?, numeralsInside, signAfter,
      endsOperand, h rest hRest]

theorem group (bracket : Bracket) (inside : List Tree) :
    Writes [.group bracket inside] (numerals (some "") inside) := by
  intro rest _
  simp [numerals, operand?, numeralsInside, signAfter]

theorem literal (text : String) : Writes [literalTree text] [] := by
  intro rest _
  simp [numerals, literalTree, operand?, numeralsInside, signAfter]

theorem number (x : Number) : Writes (numberTrees x) [x.sourceText] := by
  intro rest hRest
  rw [numberTrees, signedTrees.eq_def]
  split
  · rename_i magnitude hText
    have hSigned : "-" ++ String.ofList magnitude = x.sourceText := by
      rw [← String.toList_inj, hText]
      simp
    simp [numerals, wordTree, markTree, operand?, numeralsInside, signAfter, hRest, hSigned]
  · simp [numerals, wordTree, operand?, numeralsInside, signAfter, hRest]

end Writes

/-! ### Messages and calls -/

theorem writes_param (param : Param) :
    Writes (paramTrees param) (param.number?.toList.map Number.sourceText) := by
  cases param with
  | number x => exact .number x
  | text s => exact .literal s

theorem writes_paramRows (row : String × Param) (params : Params) :
    Writes (paramRowTrees row ++ paramRowsTrees params)
      (((row :: params).filterMap (·.2.number?)).map Number.sourceText) := by
  have hRow (row : String × Param) : Writes (paramRowTrees row) _ :=
    Writes.key row.1 (writes_param row.2)
  have hSplit (row : String × Param) (params : Params) :
      (row :: params).filterMap (·.2.number?) =
        row.2.number?.toList ++ params.filterMap (·.2.number?) := by
    rw [List.filterMap_cons]
    cases row.2.number? <;> rfl
  induction params generalizing row with
  | nil =>
    rw [hSplit, List.filterMap_nil, List.append_nil, paramRowsTrees, List.flatMap_nil,
      List.append_nil]
    exact hRow row
  | cons other rest ih =>
    rw [hSplit, List.map_append]
    exact (hRow row).comma (ih other)

/-- The numbers of a message are among the parameters of the localized text. -/
theorem writes_message (message : Message) :
    Writes (messageTrees message) ((messageNumbers (some message)).map Number.sourceText) := by
  cases message with
  | literal text => exact .literal text
  | localized key params =>
    have hInside : numerals (some "") (literalTree key :: paramsTrees params) =
        (messageNumbers (some (.localized key params))).map Number.sourceText := by
      cases params with
      | nil => exact (Writes.literal key).numerals_eq
      | cons row rest =>
        have hRows := writes_paramRows row rest
        have hGroup := Writes.group .curly (paramRowTrees row ++ paramRowsTrees rest)
        rw [hRows.numerals_eq] at hGroup
        exact ((Writes.literal key).comma hGroup).numerals_eq
    intro rest _
    rw [← hInside]
    simp [messageTrees, numerals, wordTree, operand?, numeralsInside, signAfter, endsOperand]

theorem writes_messageTree (message : Message) :
    Writes [messageTree message] ((messageNumbers (some message)).map Number.sourceText) := by
  have hLabel : Writes (wordTree "message" :: markTree ':' :: messageTrees message) _ :=
    Writes.key "message" (writes_message message)
  rw [← hLabel.numerals_eq]
  exact .group .curly _

theorem writes_messageArgument (message : Option Message) :
    Writes (messageArgumentTrees message) ((messageNumbers message).map Number.sourceText) := by
  cases message with
  | none => exact .nil
  | some content => exact writes_messageTree content

/-- An operand with a message behind it. -/
theorem Writes.remark (h : Writes first texts) (message : Option Message) :
    Writes (first ++ remarkTrees message)
      (texts ++ (messageNumbers message).map Number.sourceText) := by
  cases message with
  | none =>
    have hNone : messageNumbers none = [] := rfl
    rw [remarkTrees, List.append_nil, hNone, List.map_nil, List.append_nil]
    exact h
  | some content => exact h.comma (writes_messageTree content)

theorem writes_pattern (s : String) (p : Pattern) : Writes (patternTrees s p) [] := by
  intro rest _
  cases p with
  | custom =>
    rw [patternTrees, memberTrees]
    split <;>
      simp [numerals, wordTree, markTree, literalTree, operand?, numeralsInside, signAfter,
        endsOperand]
  | regex =>
    simp [patternTrees, numerals, wordTree, literalTree, operand?, numeralsInside, signAfter,
      endsOperand]
  | _ => simp [patternTrees, numerals, literalTree, operand?, numeralsInside, signAfter]

theorem writes_lengthTest : Writes lengthTestTrees [] := by
  intro rest _
  simp [lengthTestTrees, numerals, wordTree, markTree, operand?, numeralsInside, signAfter,
    endsOperand]

/-- The arguments of the call of a check have its number and those of its message. -/
theorem writes_check (wrapped : Bool) (c : Constraint) :
    Writes (checkTrees c.message (shownCheck wrapped c.check))
      ((c.numbers wrapped).map Number.sourceText) := by
  obtain ⟨check, message⟩ := c
  rw [Constraint.numbers, List.map_append]
  cases check with
  | flag f =>
    cases f with
    | nullable => exact .nil
    | _ => exact writes_messageArgument message
  | bound b x => exact (Writes.number x).remark message
  | pattern p s => exact (writes_pattern s p).remark message
  | optional => exact .nil
  | requiredMin =>
    cases wrapped with
    | false => exact (Writes.number (.ofInt 1)).remark message
    | true => exact writes_lengthTest.remark message

theorem numerals_constraints (wrapped : Bool) (constraints : List Constraint) :
    (shownCalls wrapped constraints).flatMap (fun call => numerals (some "") call.arguments) =
      (constraintNumbers wrapped constraints).map Number.sourceText := by
  induction constraints generalizing wrapped with
  | nil => rfl
  | cons c rest ih =>
    rw [shownCalls, List.flatMap_cons, ih, constraintNumbers, List.map_append,
      ← (writes_check wrapped c).numerals_eq]
    rfl

/-! ### Chains -/

theorem writes_chain_of_base {base : Base} {message : Option Message}
    (h : Writes (baseTrees message base) ((baseNumbers message base).map Number.sourceText))
    (constraints : List Constraint) :
    Writes (chainExpression (.mk base message constraints)).trees
      ((Chain.numbers (.mk base message constraints)).map Number.sourceText) := by
  intro rest _
  have hBase := h.numerals_eq
  have hCalls := numerals_calls (shownCalls false constraints) rest
  rw [numerals_constraints] at hCalls
  have hCall := numerals_call ⟨baseMethod base, baseTrees message base⟩
    ((shownCalls false constraints).flatMap Call.trees ++ rest)
  rw [hBase, hCalls] at hCall
  rw [chainExpression, Expression.trees, Chain.numbers, List.map_append, List.append_assoc,
    ← hCall]
  simp [Call.trees, numerals, wordTree, markTree, operand?, numeralsInside, signAfter, endsOperand]

mutual

/-- The numerals in the code of a chain are the texts of its numbers. -/
theorem writes_chain : ∀ chain : Chain,
    Writes (chainExpression chain).trees (chain.numbers.map Number.sourceText)
  | .mk base message constraints =>
    writes_chain_of_base (writes_base message base) constraints

theorem writes_base (message : Option Message) : ∀ base : Base,
    Writes (baseTrees message base) ((baseNumbers message base).map Number.sourceText)
  | .string => writes_messageArgument message
  | .number => writes_messageArgument message
  | .boolean => writes_messageArgument message
  | .date => writes_messageArgument message
  | .any => .nil
  | .array item => by
    rw [baseTrees, baseNumbers, List.map_append]
    exact (writes_chain item).remark message
  | .object properties => by
    have hGroup := Writes.group .curly (propertyTrees properties)
    rw [numerals_properties properties] at hGroup
    rw [baseTrees, baseNumbers, List.map_append]
    exact hGroup.remark message

theorem numerals_properties : ∀ properties : List (String × Chain),
    numerals (some "") (propertyTrees properties) =
      (propertyNumbers properties).map Number.sourceText
  | [] => rfl
  | (name, chain) :: rest => by
    have hProperty := Writes.key name (writes_chain chain) (markTree ',' :: propertyTrees rest) rfl
    rw [numerals_comma, numerals_properties rest] at hProperty
    rw [propertyTrees, propertyNumbers, List.map_append]
    exact hProperty

end

/-! ### Rulesets -/

/-- The numbers of the schema of an action, in the order in which they are written. -/
def actionNumbers (action : Action) : List Number := propertyNumbers action.fields

theorem trees?_schemaText (action : Action) : ∃ trees,
    trees? (schemaText action).toList = some trees ∧
      numerals (some "") trees = (actionNumbers action).map Number.sourceText := by
  have hNumbers : Chain.numbers (.mk (.object action.fields) none []) = actionNumbers action := by
    simp [Chain.numbers, baseNumbers, messageNumbers, constraintNumbers, actionNumbers]
  refine ⟨_, trees?_chainText 0 _, ?_⟩
  rw [(writes_chain _).numerals_eq, hNumbers]

/-- The numbers in the schemas of a ruleset are those that its rules set, and the least length of
texts. The text of each denotes a number of its value just if it is not infinite. -/
theorem rulesetNumbers_denote_iff {text : String} {value : Yaml.Value} {forms : Forms}
    {name : String} {model : FormModel} (hText : Yaml.parse? text = some value)
    (hForms : Forms.ofValue value = .ok forms) (hModel : (name, model) ∈ forms.models)
    (paths : ImportPaths) :
    rulesetText paths (.ofModel name model) =
        fileText ((rulesetImports paths (.ofModel name model)).map Statement.line) ++
          String.join ((Ruleset.ofModel name model).actions.map (actionText (Naming.names name))) ∧
      ∀ action ∈ (Ruleset.ofModel name model).actions,
        (∃ trees, trees? (schemaText action).toList = some trees ∧
          numerals (some "") trees = (actionNumbers action).map Number.sourceText) ∧
        ∀ x ∈ actionNumbers action,
          (x = .ofInt 1 ∨ ∃ rules ∈ model, ∃ field ∈ rules.2, field.2.Sets x) ∧
          (Denotes x.sourceText x ↔ ∀ negative, x ≠ .infinite negative) := by
  refine ⟨rulesetText_parts paths _, fun action hAction => ⟨trees?_schemaText action, ?_⟩⟩
  intro x hx
  obtain ⟨rules, hRules, rfl⟩ := List.mem_map.mp hAction
  have hHas := has_of_mem_fields hx
  refine ⟨hHas.imp_right fun hSets => ⟨rules, hRules, hSets⟩, denotes_sourceText_iff ?_⟩
  rcases hHas with rfl | ⟨field, hField, hSets⟩
  · exact Number.canonical_ofInt 1
  · exact canonical_of_sets hText hForms hModel rules hRules field hField hSets

/-- Forms with a field that is at most infinite. -/
def unboundedText : String := "User:\n  create:\n    age: \x7btype: number, lte: .inf\x7d\n"

/-- The document is read, and its schema has a number whose text does not denote it. -/
theorem rulesetNumbers_unbounded : ∃ value forms model action trees,
    Yaml.parse? unboundedText = some value ∧ Forms.ofValue value = .ok forms ∧
      ("User", model) ∈ forms.models ∧ action ∈ (Ruleset.ofModel "User" model).actions ∧
      trees? (schemaText action).toList = some trees ∧ numerals (some "") trees = ["inf"] ∧
      ∃ x ∈ actionNumbers action, x.sourceText = "inf" ∧ ¬Denotes x.sourceText x := by
  have hEvaluated : ((Yaml.parse? unboundedText).any fun value =>
      (Forms.ofValue value).toOption.any fun forms => forms.models.any fun entry =>
        entry.1 == "User" && (Ruleset.ofModel "User" entry.2).actions.any fun action =>
          actionNumbers action == [.infinite false]) = true := by
    decide +kernel
  obtain ⟨value, hText, hForms⟩ := (Option.any_eq_true _ _).mp hEvaluated
  obtain ⟨forms, hRead, hModels⟩ := (Option.any_eq_true _ _).mp hForms
  simp only [List.any_eq_true, Bool.and_eq_true, beq_iff_eq] at hModels
  obtain ⟨⟨name, model⟩, hModel, rfl, action, hAction, hNumbers⟩ := hModels
  have hOk : Forms.ofValue value = .ok forms := by
    rcases hResult : Forms.ofValue value with cause | found
    · rw [hResult] at hRead
      cases hRead
    · rw [hResult] at hRead
      exact congrArg Except.ok (Option.some.inj hRead)
  obtain ⟨-, hActions⟩ := rulesetNumbers_denote_iff hText hOk hModel {}
  obtain ⟨⟨trees, hTrees, hNumerals⟩, hDenote⟩ := hActions action hAction
  have hInfinite : .infinite false ∈ actionNumbers action := by
    rw [hNumbers]
    exact List.mem_singleton_self _
  rw [hNumbers] at hNumerals
  refine ⟨value, forms, model, action, trees, hText, hOk, hModel, hAction, hTrees, hNumerals, _,
    hInfinite, rfl, fun hDenotes => ?_⟩
  exact (hDenote _ hInfinite).2.mp hDenotes false rfl

end EntityGen.TypeScript
