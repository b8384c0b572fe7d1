import EntityGen.Proofs.Form.Chain

/-! What the file of a ruleset shows of the order in the document: the order of actions, of the
fields of each and of the properties inside their rules. -/

namespace EntityGen

open TypeScript

theorem Shuffled.any_eq {α : Type} {R : α → α → Prop} {rows others : List (String × α)}
    (h : Shuffled R rows others) {condition : α → Bool}
    (hCondition : ∀ x y, R x y → condition x = condition y) :
    (rows.any fun row => condition row.2) = others.any fun row => condition row.2 := by
  obtain ⟨paired, hPerm, hPaired⟩ := h.pairing
  rw [← hPerm.any_eq]
  clear h hPerm
  induction hPaired with
  | nil => rfl
  | cons hRow _ ih => rw [List.any_cons, List.any_cons, ih, hCondition _ _ hRow.2]

/-- Two states of a model's forms have the same actions and fields, in another order perhaps, and
rules that are rearranged at most. -/
abbrev FormModel.Rearranged : FormModel → FormModel → Prop := Shuffled (Shuffled Form.Rule.Rearranged)

/-- The fields of two states of an action, and the properties in their rules, have one order. -/
structure ActionRules.InOrder (rules others : ActionRules) : Prop where
  names : rules.map (·.1) = others.map (·.1)
  rules : ∀ field p q, (field, p) ∈ rules → (field, q) ∈ others → p.InOrder q

/-- The actions of two states of a model's forms, and all inside them, have one order. -/
structure FormModel.InOrder (model other : FormModel) : Prop where
  names : model.map (·.1) = other.map (·.1)
  rules : ∀ action p q, (action, p) ∈ model → (action, q) ∈ other → ActionRules.InOrder p q

/-- The actions of a model can be told apart by their type names. -/
def FormModel.DistinctTypes (model : FormModel) : Prop :=
  ∀ action ∈ model.map (·.1), '=' ∉ (Naming.pascal action).toList ∧
    ∀ other ∈ model.map (·.1), Naming.pascal action = Naming.pascal other → action = other

instance (model : FormModel) : Decidable model.DistinctTypes := by
  unfold FormModel.DistinctTypes
  infer_instance

namespace Form

/-! ### Imports -/

theorem hasIn_eq (onBase : Option Message → Bool) (onConstraint : Constraint → Bool)
    (properties : List (String × Rule)) :
    hasIn onBase onConstraint (compileProperties properties) =
      properties.any fun row => (compile row.2).has onBase onConstraint := by
  induction properties with
  | nil => rfl
  | cons row rest ih =>
    obtain ⟨name, rule⟩ := row
    rw [compileProperties, hasIn, ih, List.any_cons]

theorem any_constraints_eq {constraints others : List Constraint}
    (h : List.Forall₂ Constraint.Alike constraints others) {condition : Constraint → Bool}
    (hCondition : ∀ c d, Constraint.Alike c d → condition c = condition d) :
    constraints.any condition = others.any condition := by
  induction h with
  | nil => rfl
  | cons hFirst _ ih => rw [List.any_cons, List.any_cons, ih, hCondition _ _ hFirst]

variable {rule other : Rule}

/-- The chains of rearranged rules need the same imports. -/
theorem has_compile_eq (h : rule.Rearranged other) {onBase : Option Message → Bool}
    {onConstraint : Constraint → Bool}
    (hConstraint : ∀ c d, Constraint.Alike c d → onConstraint c = onConstraint d) :
    (compile rule).has onBase onConstraint = (compile other).has onBase onConstraint := by
  induction h with
  | @mk rule other type flag bound pattern messages i18n hasItem item names nodup properties
      hItem hProperties =>
    have h := Rule.Rearranged.mk type flag bound pattern messages i18n hasItem item names nodup
      properties
    rw [compile_eq, compile_eq, Chain.has, Chain.has, h.message?_eq,
      any_constraints_eq h.constraints hConstraint, Rule.base, Rule.base, ← h.resolvedType_eq]
    congr 1
    cases rule.resolvedType with
    | array =>
      simp only [Base.has]
      cases hi : rule.item <;> cases hj : other.item <;> simp [hi, hj] at hasItem
      · rfl
      · exact hItem _ _ hi hj
    | object =>
      simp only [Base.has, hasIn_eq]
      exact Shuffled.any_eq (R := fun p q =>
        (compile p).has onBase onConstraint = (compile q).has onBase onConstraint)
        ⟨names, nodup, hProperties⟩ fun _ _ h => h
    | _ => rfl

end Form

namespace TypeScript

open Form

/-! ### Actions -/

/-- The characters of the line of a form field. -/
def ruleChars (row : String × Rule) : List Char := lineChars (formFieldLine (row.1, compile row.2))

theorem ruleChars_eq (row : String × Rule) :
    ruleChars row = [' ', ' '] ++ ((propertyKey row.1).toList ++
      ':' :: ' ' :: (chainChars 1 row.2 ++ [',', '\n'])) := by
  simp [ruleChars, lineChars, formFieldLine, chainChars]

theorem ruleChars_keyFirst : KeyFirst [' ', ' '] ruleChars :=
  fun row => ⟨':', _, by decide, ruleChars_eq row⟩

theorem length_ruleChars {rule other : Rule} (h : rule.Rearranged other) (field : String) :
    (ruleChars (field, rule)).length = (ruleChars (field, other)).length := by
  simp only [ruleChars_eq, List.length_append, List.length_cons, length_chainChars h]

/-- The fields of an action show their order, and that of the properties in their rules. -/
theorem rules_eq_iff {rules others : ActionRules} (h : Shuffled Rule.Rearranged rules others) :
    rules.flatMap ruleChars = others.flatMap ruleChars ↔ ActionRules.InOrder rules others := by
  have hRule (field : String) (p q : Rule) :
      ruleChars (field, p) = ruleChars (field, q) ↔ chainChars 1 p = chainChars 1 q := by
    simp [ruleChars_eq]
  rw [ruleChars_keyFirst.flatMap_eq_iff h fun field _ _ hRearranged =>
    length_ruleChars hRearranged field]
  constructor
  · rintro ⟨hNames, hLines⟩
    refine ⟨hNames, fun field p q hp hq => ?_⟩
    exact (chainChars_eq_iff (h.related field p q hp hq) 1).mp
      ((hRule field p q).mp (hLines field p q hp hq))
  · rintro ⟨hNames, hOrder⟩
    refine ⟨hNames, fun field p q hp hq => (hRule field p q).mpr ?_⟩
    exact (chainChars_eq_iff (h.related field p q hp hq) 1).mpr (hOrder field p q hp hq)

/-- The characters of an action's lines. -/
def actionChars (names : ModelNames) (row : String × ActionRules) : List Char :=
  (actionLines names ⟨row.1, Naming.pascal row.1,
    row.2.map fun (field, rule) => (field, compile rule)⟩).flatMap lineChars

/-- The characters of an action's lines before its fields. -/
def actionHead (names : ModelNames) (action : String) : List Char :=
  ("\nexport const " ++ names.valueName ++ Naming.pascal action ++ "Schema = z.object(" ++
    openBrace ++ "\n").toList

/-- The characters of an action's lines after its fields. -/
def actionTail (names : ModelNames) (action : String) : List Char :=
  (closeBrace ++ ")\n\nexport type " ++ names.className ++ Naming.pascal action ++
    "Form = z.infer<typeof " ++ names.valueName ++ Naming.pascal action ++ "Schema>\n").toList

theorem actionChars_eq (names : ModelNames) (action : String) (rules : ActionRules) :
    actionChars names (action, rules) =
      actionHead names action ++ (rules.flatMap ruleChars ++ actionTail names action) := by
  simp [actionChars, actionLines, actionHead, actionTail, schemaName, formName, lineChars,
    List.flatMap_map]
  rfl

/-- An action's lines show its type name, if there is no equals sign in it. -/
theorem pascal_eq_of_actionChars {names : ModelNames} {a b : String × ActionRules} {p q : List Char}
    (ha : '=' ∉ (Naming.pascal a.1).toList) (hb : '=' ∉ (Naming.pascal b.1).toList)
    (h : actionChars names a ++ p = actionChars names b ++ q) :
    Naming.pascal a.1 = Naming.pascal b.1 := by
  have hHead (row : String × ActionRules) (p : List Char) : ∃ rest, actionChars names row ++ p =
      ("\nexport const " ++ names.valueName).toList ++
        ((Naming.pascal row.1).toList ++ ['S', 'c', 'h', 'e', 'm', 'a', ' '] ++ '=' :: rest) := by
    refine ⟨(" z.object(" ++ openBrace ++ "\n").toList ++
      (row.2.flatMap ruleChars ++ (actionTail names row.1 ++ p)), ?_⟩
    simp [actionChars_eq names row.1 row.2, actionHead]
  obtain ⟨rest, hRest⟩ := hHead a p
  obtain ⟨others, hOthers⟩ := hHead b q
  rw [hRest, hOthers, List.append_cancel_left_eq] at h
  have hTaken (name : String) (hName : '=' ∉ name.toList) (rest : List Char) :
      (name.toList ++ ['S', 'c', 'h', 'e', 'm', 'a', ' '] ++ '=' :: rest).takeWhile (· != '=') =
        name.toList ++ ['S', 'c', 'h', 'e', 'm', 'a', ' '] := by
    rw [List.takeWhile_append_of_pos, List.takeWhile_cons_of_neg (by decide), List.append_nil]
    intro c hc
    rcases List.mem_append.mp hc with hc | hc
    · simpa using fun hEqual : c = '=' => hName (hEqual ▸ hc)
    · have hSuffix : ∀ c ∈ ['S', 'c', 'h', 'e', 'm', 'a', ' '], (c != '=') = true := by simp
      exact hSuffix c hc
  have hNames := congrArg (List.takeWhile (· != '=')) h
  rw [hTaken _ ha, hTaken _ hb, List.append_cancel_right_eq] at hNames
  exact String.toList_inj.mp hNames

variable {model other : FormModel} {names : ModelNames}

theorem length_actionChars {rules others : ActionRules} (h : Shuffled Rule.Rearranged rules others)
    (action : String) :
    (actionChars names (action, rules)).length = (actionChars names (action, others)).length := by
  have hLength : (rules.flatMap ruleChars).length = _ :=
    h.length_flatMap fun field _ _ hRearranged => length_ruleChars hRearranged field
  simp only [actionChars_eq, List.length_append, hLength]

theorem actionChars_inj {action : String} {rules others : ActionRules} :
    actionChars names (action, rules) = actionChars names (action, others) ↔
      rules.flatMap ruleChars = others.flatMap ruleChars := by
  rw [actionChars_eq, actionChars_eq, List.append_cancel_left_eq, List.append_cancel_right_eq]

theorem actionChars_congr (h : model.Rearranged other) (hOrder : model.InOrder other)
    (action : String) (x y : ActionRules) (hx : (action, x) ∈ model) (hy : (action, y) ∈ other) :
    actionChars names (action, x) = actionChars names (action, y) :=
  actionChars_inj.mpr ((rules_eq_iff (h.related action x y hx hy)).mpr
    (hOrder.rules action x y hx hy))

/-- Actions that can be told apart show their order, and that of all inside them. -/
theorem actions_eq_iff (h : model.Rearranged other) (hTypes : model.DistinctTypes) :
    model.flatMap (actionChars names) = other.flatMap (actionChars names) ↔
      model.InOrder other := by
  have hName : ∀ a ∈ model, ∀ b ∈ other, ∀ p q,
      actionChars names a ++ p = actionChars names b ++ q → a.1 = b.1 := by
    intro a ha b hb p q hText
    have hFirst := List.mem_map_of_mem (f := (·.1)) ha
    have hSecond := h.names.symm.subset (List.mem_map_of_mem (f := (·.1)) hb)
    exact (hTypes a.1 hFirst).2 b.1 hSecond
      (pascal_eq_of_actionChars (hTypes a.1 hFirst).1 (hTypes b.1 hSecond).1 hText)
  rw [h.flatMap_eq_iff hName fun action _ _ hRules => length_actionChars hRules action]
  constructor
  · rintro ⟨hNames, hLines⟩
    refine ⟨hNames, fun action x y hx hy => ?_⟩
    exact (rules_eq_iff (h.related action x y hx hy)).mp
      (actionChars_inj.mp (hLines action x y hx hy))
  · exact fun hOrder => ⟨hOrder.names, actionChars_congr h hOrder⟩

/-! ### Rulesets -/

/-- The characters of a ruleset's imports. -/
def rulesetHead (paths : ImportPaths) (usesLocalized usesCustom : Bool) : List Char :=
  (["import " ++ braced "z" ++ " from 'zod'"] ++
    (if usesLocalized then ["import " ++ braced "t" ++ " from " ++ literal paths.i18n] else []) ++
    (if usesCustom then ["import * as validators from " ++ literal paths.validators]
      else [])).flatMap lineChars

theorem rulesetText_toList (paths : ImportPaths) (name : String) (model : FormModel) :
    (rulesetText paths (Ruleset.ofModel name model)).toList =
      rulesetHead paths (Ruleset.ofModel name model).usesLocalized
          (Ruleset.ofModel name model).usesCustom ++
        model.flatMap (actionChars (Naming.names name)) := by
  rw [rulesetText, fileText_toList, rulesetLines, List.flatMap_append, rulesetHead]
  simp only [Ruleset.ofModel, List.flatMap_map, List.flatMap_assoc]
  rfl

theorem imports_eq (h : model.Rearranged other) (name : String)
    {onBase : Option Message → Bool} {onConstraint : Constraint → Bool}
    (hConstraint : ∀ c d, Constraint.Alike c d → onConstraint c = onConstraint d) :
    (Ruleset.ofModel name model).any (Chain.has onBase onConstraint) =
      (Ruleset.ofModel name other).any (Chain.has onBase onConstraint) := by
  have hAny (model : FormModel) :
      (Ruleset.ofModel name model).any (Chain.has onBase onConstraint) =
        model.any fun action =>
          action.2.any fun field => (compile field.2).has onBase onConstraint := by
    simp only [Ruleset.any, Ruleset.ofModel, List.any_map, Function.comp_def]
  rw [hAny, hAny]
  exact h.any_eq fun _ _ hRules => hRules.any_eq fun _ _ hRule => has_compile_eq hRule hConstraint

theorem rulesetHead_eq (h : model.Rearranged other) (paths : ImportPaths) (name : String) :
    rulesetHead paths (Ruleset.ofModel name model).usesLocalized
        (Ruleset.ofModel name model).usesCustom =
      rulesetHead paths (Ruleset.ofModel name other).usesLocalized
        (Ruleset.ofModel name other).usesCustom := by
  have hLocalized : (Ruleset.ofModel name model).usesLocalized =
      (Ruleset.ofModel name other).usesLocalized :=
    imports_eq h name fun _ _ hAlike => hAlike.localized
  have hCustom : (Ruleset.ofModel name model).usesCustom =
      (Ruleset.ofModel name other).usesCustom :=
    imports_eq h name fun _ _ hAlike => hAlike.custom
  rw [hLocalized, hCustom]

/-- Forms in the same order have the same file. -/
theorem rulesetText_eq (h : model.Rearranged other) (hOrder : model.InOrder other)
    (paths : ImportPaths) (name : String) :
    rulesetText paths (Ruleset.ofModel name model) =
      rulesetText paths (Ruleset.ofModel name other) := by
  rw [← String.toList_inj, rulesetText_toList, rulesetText_toList, rulesetHead_eq h]
  rw [Shuffled.flatMap_congr hOrder.names (actionChars_congr h hOrder)]

/-- Where actions can be told apart, the file of forms that are rearranged is the same if and only
if the order is. -/
theorem rulesetText_eq_iff (h : model.Rearranged other) (hTypes : model.DistinctTypes)
    (paths : ImportPaths) (name : String) :
    rulesetText paths (Ruleset.ofModel name model) =
        rulesetText paths (Ruleset.ofModel name other) ↔ model.InOrder other := by
  rw [← String.toList_inj, rulesetText_toList, rulesetText_toList, rulesetHead_eq h,
    List.append_cancel_left_eq]
  exact actions_eq_iff h hTypes

end TypeScript

end EntityGen
