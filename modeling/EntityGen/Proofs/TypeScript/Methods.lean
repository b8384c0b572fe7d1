import EntityGen.Proofs.Form.Compiled
import EntityGen.Proofs.TypeScript.Expression

/-! The methods that the code of a rule calls. A method of one class of values is called on a value
of that class only, before a predicate or a null check has wrapped it; a text that must be there is
tested for its length at the end, in the way that is still open; and nothing is called on a value
that may be missing. -/

namespace EntityGen.TypeScript

open Form

/-! ### What methods there are -/

/-- The classes of the validation library. -/
inductive ValueClass where
  | string
  | number
  | boolean
  | date
  | any
  | array
  | object
deriving DecidableEq

/-- The class that a call on the library gives. -/
def ValueClass.ofMethod? : String → Option ValueClass
  | "string" => some .string
  | "number" => some .number
  | "boolean" => some .boolean
  | "date" => some .date
  | "any" => some .any
  | "array" => some .array
  | "object" => some .object
  | _ => none

/-- The methods of one class, which keep it. -/
def ValueClass.methods : ValueClass → List String
  | .string =>
    ["min", "max", "length", "email", "url", "uuid", "cuid", "includes", "startsWith", "endsWith",
      "regex"]
  | .number =>
    ["gt", "gte", "lt", "lte", "int", "positive", "negative", "multipleOf", "finite", "safe"]
  | .array => ["nonempty", "min", "max"]
  | _ => []

/-- What a method is called on: a value of a class, one that a predicate or a null check has
wrapped, or one that may be missing. -/
inductive Receiver where
  | own (c : ValueClass)
  | wrapped
  | ended
deriving DecidableEq

/-- What a method of all classes gives. -/
def wrapper? : String → Option Receiver
  | "refine" => some .wrapped
  | "nullable" => some .wrapped
  | "optional" => some .ended
  | _ => none

/-- What a call of a method gives, if there is the method. -/
def Receiver.after? : Receiver → String → Option Receiver
  | .own c, method => if method ∈ c.methods then some (.own c) else wrapper? method
  | .wrapped, method => wrapper? method
  | .ended, _ => none

/-- What calls give, if there are their methods. -/
def Receiver.afterAll? (receiver : Receiver) (calls : List Call) : Option Receiver :=
  calls.foldlM (fun receiver call => receiver.after? call.method) receiver

/-! ### Expressions whose methods there are -/

def Tree.isComma : Tree → Bool
  | .atom (.mark ',') => true
  | _ => false

/-- The trees of a call's first argument. -/
def firstArgument (arguments : List Tree) : List Tree :=
  arguments.takeWhile fun tree => !tree.isComma

/-- A call tests that a text has a character: by the method of texts, or by a predicate if it has
been wrapped. -/
inductive TestsLength : Receiver → Call → Prop
  | min {arguments : List Tree} (one : trees? "1".toList = some (firstArgument arguments)) :
      TestsLength (.own .string) ⟨"min", arguments⟩
  | refine {arguments : List Tree}
      (test : trees? "v => v == null || v.length >= 1".toList = some (firstArgument arguments)) :
      TestsLength .wrapped ⟨"refine", arguments⟩

/-- The last of some calls on a text tests that it has a character. -/
def EndsWithTest (calls : List Call) : Prop :=
  ∃ before last receiver, calls = before ++ [last] ∧
    Receiver.afterAll? (.own .string) before = some receiver ∧ TestsLength receiver last

/-- The class of the values of a type. -/
def valueClass : RuleType → ValueClass
  | .string => .string
  | .number => .number
  | .boolean => .boolean
  | .date => .date
  | .array => .array
  | .object => .object
  | .unknown _ => .any

mutual

/-- Code is an expression for the values of a rule, all of whose methods there are where they are
called; and so is the code inside it for the rules inside the rule. -/
inductive MethodCorrect : Rule → List Tree → Prop
  | mk {rule : Rule} {type : RuleType} {trees : List Tree} {e : Expression} {receiver : Receiver}
      (hasType : rule.HasType type) (reads : expression? trees = some e)
      (base : ValueClass.ofMethod? e.base.method = some (valueClass type))
      (calls : Receiver.afterAll? (.own (valueClass type)) e.calls = some receiver)
      (required : rule.flag .required = true → rule.HasType .string → EndsWithTest e.calls)
      (inside : ArgumentsCorrect rule e.base.arguments) : MethodCorrect rule trees

/-- The arguments of the call for a base type are right for a rule: there is code for the items of
an array, which may be anything if there is no rule for them, and for the properties of an object. -/
inductive ArgumentsCorrect : Rule → List Tree → Prop
  | item {rule item : Rule} {arguments : List Tree} (hasType : rule.HasType .array)
      (there : rule.item = some item) (correct : MethodCorrect item (firstArgument arguments)) :
      ArgumentsCorrect rule arguments
  | anyItem {rule : Rule} {arguments : List Tree} (hasType : rule.HasType .array)
      (missing : rule.item = none)
      (reads : expression? (firstArgument arguments) = some ⟨⟨"any", []⟩, []⟩) :
      ArgumentsCorrect rule arguments
  | properties {rule : Rule} {arguments inside : List Tree} (hasType : rule.HasType .object)
      (object : firstArgument arguments = [.group .curly inside])
      (correct : PropertiesCorrect rule.properties inside) : ArgumentsCorrect rule arguments
  | nothing {rule : Rule} {arguments : List Tree} (noArray : ¬rule.HasType .array)
      (noObject : ¬rule.HasType .object) : ArgumentsCorrect rule arguments

/-- Properties have the names of rules, in order, and code that is right for the rules. -/
inductive PropertiesCorrect : List (String × Rule) → List Tree → Prop
  | nil : PropertiesCorrect [] []
  | cons {name : String} {rule : Rule} {rules : List (String × Rule)} {value rest : List Tree}
      (correct : MethodCorrect rule value) (more : PropertiesCorrect rules rest) :
      PropertiesCorrect ((name, rule) :: rules)
        (keyTree name :: markTree ':' :: (value ++ markTree ',' :: rest))

end

/-! ### Calls of a rule's constraints -/

variable {rule : Rule} {receiver : Receiver} {calls more : List Call}

theorem afterAll?_append : receiver.afterAll? (calls ++ more) =
    (receiver.afterAll? calls).bind fun next => next.afterAll? more :=
  List.foldlM_append

theorem afterAll?_singleton {call : Call} :
    receiver.afterAll? [call] = receiver.after? call.method := by
  rw [Receiver.afterAll?, List.foldlM_cons]
  exact bind_pure _

/-- Methods of one class keep it. -/
theorem afterAll?_own {c : ValueClass} (h : ∀ call ∈ calls, call.method ∈ c.methods) :
    Receiver.afterAll? (.own c) calls = some (.own c) := by
  induction calls with
  | nil => rfl
  | cons call rest ih =>
    rw [List.forall_mem_cons] at h
    have hAfter : Receiver.after? (.own c) call.method = some (.own c) := if_pos h.1
    rw [← List.singleton_append, afterAll?_append, afterAll?_singleton, hAfter, Option.bind_some,
      ih h.2]

/-- Whether some of the constraints leave a chain without the methods of its type. -/
def wrapsAny (constraints : List Constraint) : Bool := constraints.any fun c => wrapsChain c.check

theorem shownCalls_append (wrapped : Bool) (first second : List Constraint) :
    shownCalls wrapped (first ++ second) =
      shownCalls wrapped first ++ shownCalls (wrapped || wrapsAny first) second := by
  induction first generalizing wrapped with
  | nil => rw [wrapsAny, List.any_nil, Bool.or_false]; rfl
  | cons c first ih =>
    rw [List.cons_append, shownCalls, shownCalls, ih, wrapsAny, wrapsAny, List.any_cons,
      Bool.or_assoc, List.cons_append]

/-- What the calls of a chain's constraints are called on. -/
def receiverOf (values : ValueClass) (wrapped : Bool) : Receiver :=
  if wrapped then .wrapped else .own values

/-- The method of an attribute's check. -/
def attributeMethod : Attribute → Method
  | .flag f => .of (.flag f)
  | .bound b => .of (.bound (shownBound b))
  | .pattern .custom => .refine
  | known => .of known

theorem shownCall_method {known : Attribute} {c : Constraint}
    (h : rule.constraint? known = some c) (wrapped : Bool) :
    (shownCall wrapped c).method = (attributeMethod known).name := by
  cases gives_of_constraint? h with
  | flag => rfl
  | @bound b => cases b <;> rfl
  | @pattern p => cases p <;> rfl

theorem exists_of_mem_shownCalls {wrapped : Bool} {constraints : List Constraint} {call : Call}
    (h : call ∈ shownCalls wrapped constraints) :
    ∃ c ∈ constraints, ∃ wrapped, call = shownCall wrapped c := by
  induction constraints generalizing wrapped with
  | nil => cases h
  | cons c rest ih =>
    rcases List.mem_cons.mp h with rfl | h
    · exact ⟨c, List.mem_cons_self, wrapped, rfl⟩
    · obtain ⟨d, hd, hCall⟩ := ih h
      exact ⟨d, List.mem_cons_of_mem c hd, hCall⟩

/-- The attributes of a type have methods of its class, and leave a chain with them. -/
theorem attributes_methods (type : RuleType) : ∀ known ∈ type.attributes,
    (attributeMethod known).name ∈ (valueClass type).methods ∧ known ≠ .pattern .custom ∧
      known ≠ .flag .nullable := by
  cases type <;> simp only [RuleType.attributes, valueClass] <;> decide

theorem wrapsChain_eq_false {known : Attribute} {c : Constraint}
    (hCustom : known ≠ .pattern .custom) (hNullable : known ≠ .flag .nullable)
    (h : rule.constraint? known = some c) : wrapsChain c.check = false := by
  cases gives_of_constraint? h with
  | @flag f =>
    cases f with
    | nullable => exact absurd rfl hNullable
    | _ => rfl
  | bound => rfl
  | @pattern p =>
    cases p with
    | custom => exact absurd rfl hCustom
    | _ => rfl

/-- The constraints of a type are called on its class, and keep it. -/
theorem afterAll?_typed (rule : Rule) (constraints : List Constraint)
    (h : constraints = rule.resolvedType.attributes.filterMap rule.constraint?) :
    Receiver.afterAll? (.own (valueClass rule.resolvedType)) (shownCalls false constraints) =
      some (.own (valueClass rule.resolvedType)) ∧ wrapsAny constraints = false := by
  have hMethods := attributes_methods rule.resolvedType
  subst h
  constructor
  · refine afterAll?_own fun call hCall => ?_
    obtain ⟨c, hc, wrapped, rfl⟩ := exists_of_mem_shownCalls hCall
    obtain ⟨known, hKnown, hc⟩ := List.mem_filterMap.mp hc
    rw [shownCall_method hc]
    exact (hMethods known hKnown).1
  · refine List.any_eq_false.mpr fun c hc => ?_
    obtain ⟨known, hKnown, hc⟩ := List.mem_filterMap.mp hc
    obtain ⟨-, hCustom, hNullable⟩ := hMethods known hKnown
    rw [wrapsChain_eq_false hCustom hNullable hc]
    exact Bool.false_ne_true

/-- The methods of all classes are none of one class. -/
theorem after?_receiverOf {method : String} (h : method ∈ ["refine", "nullable", "optional"])
    (values : ValueClass) (wrapped : Bool) :
    (receiverOf values wrapped).after? method = wrapper? method := by
  have hApart : ∀ method ∈ ["refine", "nullable", "optional"], method ∉ values.methods := by
    cases values <;> decide
  cases wrapped with
  | false => exact if_neg (hApart method h)
  | true => rfl

/-- A predicate or a null check wraps what it is called on. -/
theorem after?_of_wrapsChain {c : Constraint} (h : wrapsChain c.check = true) (values : ValueClass)
    (wrapped : Bool) :
    (receiverOf values wrapped).after? (shownCall wrapped c).method = some .wrapped := by
  have hMethods : ∀ method ∈ ["refine", "nullable"],
      method ∈ ["refine", "nullable", "optional"] := by decide
  obtain ⟨check, message⟩ := c
  cases check with
  | flag f =>
    cases f with
    | nullable => exact after?_receiverOf (hMethods "nullable" (by decide)) values wrapped
    | _ => cases h
  | pattern p s =>
    cases p with
    | custom => exact after?_receiverOf (hMethods "refine" (by decide)) values wrapped
    | _ => cases h
  | _ => cases h

theorem afterAll?_wrappers (values : ValueClass) (wrapped : Bool) {constraints : List Constraint}
    (h : ∀ c ∈ constraints, wrapsChain c.check = true) :
    (receiverOf values wrapped).afterAll? (shownCalls wrapped constraints) =
      some (receiverOf values (wrapped || wrapsAny constraints)) := by
  induction constraints generalizing wrapped with
  | nil =>
    rw [wrapsAny, List.any_nil, Bool.or_false]
    rfl
  | cons c rest ih =>
    rw [List.forall_mem_cons] at h
    have hRest := ih true h.2
    rw [shownCalls, ← List.singleton_append, afterAll?_append, afterAll?_singleton,
      after?_of_wrapsChain h.1, Option.bind_some, wrapsAny, List.any_cons, h.1, Bool.or_true,
      Bool.true_or, Bool.or_true]
    exact hRest

/-- The constraints of a rule before the last one. -/
def leadingConstraints (rule : Rule) : List Constraint :=
  rule.resolvedType.attributes.filterMap rule.constraint? ++
    ((rule.constraint? (.pattern .custom)).toList ++ rule.nullable?.toList)

theorem afterAll?_checks (rule : Rule) :
    Receiver.afterAll? (.own (valueClass rule.resolvedType))
        (shownCalls false (leadingConstraints rule)) =
      some (receiverOf (valueClass rule.resolvedType) (wrapsAny (leadingConstraints rule))) := by
  obtain ⟨hTyped, hNone⟩ := afterAll?_typed rule _ rfl
  have hWraps : ∀ c ∈ (rule.constraint? (.pattern .custom)).toList ++ rule.nullable?.toList,
      wrapsChain c.check = true := by
    intro c hc
    rw [List.mem_append, Option.mem_toList, Option.mem_toList] at hc
    rcases hc with hc | hc
    · obtain ⟨s, -, rfl⟩ := Option.map_eq_some_iff.mp hc
      rfl
    · obtain ⟨-, rfl⟩ := nullable?_eq_some_iff.mp hc
      rfl
  have hWrappers := afterAll?_wrappers (valueClass rule.resolvedType) false hWraps
  rw [leadingConstraints, shownCalls_append, afterAll?_append, hTyped, Option.bind_some, hNone,
    Bool.or_false, wrapsAny, List.any_append, ← wrapsAny, ← wrapsAny, hNone]
  exact hWrappers

theorem constraints_eq_leading (rule : Rule) :
    rule.constraints = leadingConstraints rule ++ rule.presence?.toList := by
  rw [Rule.constraints, leadingConstraints, List.append_assoc, List.append_assoc, List.append_assoc,
    List.append_assoc]

/-! ### Arguments -/

theorem firstArgument_append {first : List Tree} (h : ∀ tree ∈ first, tree.isComma = false)
    (message : Option Message) : firstArgument (first ++ remarkTrees message) = first := by
  have hRest : (remarkTrees message).takeWhile (fun tree => !tree.isComma) = [] := by
    cases message <;> rfl
  have hFirst : ∀ tree ∈ first, (!tree.isComma) = true := fun tree hTree => by
    rw [h tree hTree, Bool.not_false]
  rw [firstArgument, List.takeWhile_append_of_pos hFirst, hRest, List.append_nil]

theorem expression_noComma (e : Expression) : ∀ tree ∈ e.trees, tree.isComma = false := by
  have hCall (call : Call) : ∀ tree ∈ call.trees, tree.isComma = false := by
    simp [Call.trees, Tree.isComma, markTree, wordTree]
  refine List.forall_mem_cons.mpr ⟨rfl, List.forall_mem_append.mpr ⟨hCall e.base, fun tree h => ?_⟩⟩
  obtain ⟨call, -, hTree⟩ := List.mem_flatMap.mp h
  exact hCall call tree hTree

theorem lengthTest_noComma : ∀ tree ∈ lengthTestTrees, tree.isComma = false := by
  simp [lengthTestTrees, Tree.isComma, markTree, wordTree]

/-- The number of characters that a text has at least, as a tree. -/
theorem numberTrees_one : numberTrees (.ofInt 1) = [wordTree "1"] := by
  have hText : Number.sourceText (.ofInt 1) = "1" := by decide
  rw [numberTrees, hText]
  rfl

/-! ### Rules -/

/-- The call of a least length of one, whether or not the text has been wrapped. -/
theorem testsLength (wrapped : Bool) (message : Option Message) :
    TestsLength (receiverOf .string wrapped) (shownCall wrapped ⟨.requiredMin, message⟩) := by
  cases wrapped with
  | false =>
    refine .min ?_
    show trees? "1".toList = some (firstArgument (numberTrees (.ofInt 1) ++ remarkTrees message))
    rw [numberTrees_one, firstArgument_append (List.forall_mem_singleton.mpr rfl)]
    exact Spells.trees?_eq (.magnitude (Number.isMagnitude_natDigits 1))
  | true =>
    refine .refine ?_
    show trees? _ = some (firstArgument (lengthTestTrees ++ remarkTrees message))
    rw [firstArgument_append lengthTest_noComma]
    exact Spells.lengthTest.trees?_eq

theorem afterAll?_constraints (rule : Rule) : ∃ receiver,
    Receiver.afterAll? (.own (valueClass rule.resolvedType)) (shownCalls false rule.constraints) =
      some receiver := by
  rw [constraints_eq_leading, shownCalls_append, afterAll?_append, afterAll?_checks,
    Option.bind_some, Bool.false_or]
  generalize wrapsAny (leadingConstraints rule) = wrapped
  cases hLast : rule.presence? with
  | none => exact ⟨_, rfl⟩
  | some c =>
    show ∃ receiver, Receiver.afterAll? _ [shownCall wrapped c] = some receiver
    rw [afterAll?_singleton]
    rcases presence?_cases hLast with ⟨-, rfl⟩ | ⟨-, hType, rfl⟩
    · have hOptional : "optional" ∈ ["refine", "nullable", "optional"] := by decide
      exact ⟨.ended, after?_receiverOf hOptional _ wrapped⟩
    · rw [hType]
      cases wrapped with
      | false => exact ⟨.own .string, rfl⟩
      | true => exact ⟨.wrapped, rfl⟩

theorem endsWithTest (hRequired : rule.flag .required = true) (hType : rule.HasType .string) :
    EndsWithTest (shownCalls false rule.constraints) := by
  rw [hasType_iff] at hType
  have hLast : rule.presence? =
      some ⟨.requiredMin, rule.message? "required" [("min", .number (.ofInt 1))]⟩ := by
    rw [Rule.presence?, hRequired, hType]
    rfl
  have hBefore := afterAll?_checks rule
  rw [hType] at hBefore
  refine ⟨_, _, _, ?_, hBefore,
    testsLength _ (rule.message? "required" [("min", .number (.ofInt 1))])⟩
  rw [constraints_eq_leading, hLast, shownCalls_append, Bool.false_or]
  rfl

theorem ofMethod?_base (rule : Rule) :
    ValueClass.ofMethod? (baseMethod rule.base) = some (valueClass rule.resolvedType) := by
  rw [Rule.base]
  cases rule.resolvedType <;> rfl

mutual

theorem methodCorrect_compile : ∀ rule : Rule,
    MethodCorrect rule (chainExpression (compile rule)).trees
  | ⟨type, flag, bound, pattern, messages, i18n, item, properties⟩ => by
    have hItem := methodCorrect_compileItem item
    have hProperties := propertiesCorrect_compile properties
    rw [compile_eq, chainExpression]
    obtain ⟨receiver, hCalls⟩ := afterAll?_constraints
      ⟨type, flag, bound, pattern, messages, i18n, item, properties⟩
    refine .mk (Rule.hasType_resolvedType _) (expression?_trees _) (ofMethod?_base _) hCalls
      endsWithTest ?_
    have hFirst (e : Expression) (message : Option Message) :
        firstArgument (e.trees ++ remarkTrees message) = e.trees :=
      firstArgument_append (expression_noComma e) message
    rw [Rule.base]
    split
    case h_1 hType => exact .nothing (by simp [hasType_iff, hType]) (by simp [hasType_iff, hType])
    case h_2 hType => exact .nothing (by simp [hasType_iff, hType]) (by simp [hasType_iff, hType])
    case h_3 hType => exact .nothing (by simp [hasType_iff, hType]) (by simp [hasType_iff, hType])
    case h_4 hType => exact .nothing (by simp [hasType_iff, hType]) (by simp [hasType_iff, hType])
    case h_5 hType =>
      rw [baseTrees]
      cases item with
      | none =>
        refine .anyItem (hasType_iff.mpr hType) rfl ?_
        rw [hFirst, expression?_trees, compileItem, Chain.any, chainExpression]
        rfl
      | some rule =>
        refine .item (hasType_iff.mpr hType) rfl ?_
        rw [hFirst]
        exact hItem rule rfl
    case h_6 hType =>
      rw [baseTrees]
      refine .properties (hasType_iff.mpr hType) ?_ hProperties
      exact firstArgument_append (List.forall_mem_singleton.mpr rfl) _
    case h_7 hType => exact .nothing (by simp [hasType_iff, hType]) (by simp [hasType_iff, hType])

theorem methodCorrect_compileItem : ∀ item : Option Rule, ∀ rule, item = some rule →
    MethodCorrect rule (chainExpression (compileItem item)).trees
  | none => fun _ hNone => nomatch hNone
  | some rule => fun _ hSome => Option.some.inj hSome ▸ methodCorrect_compile rule

theorem propertiesCorrect_compile : ∀ properties : List (String × Rule),
    PropertiesCorrect properties (propertyTrees (compileProperties properties))
  | [] => .nil
  | (_, rule) :: rest => .cons (methodCorrect_compile rule) (propertiesCorrect_compile rest)

end

/-- The code of a rule calls methods that there are only, at every depth. -/
theorem chainText_methodCorrect (depth : Nat) (rule : Rule) :
    ∃ trees, trees? (chainText depth (compile rule)).toList = some trees ∧
      MethodCorrect rule trees :=
  ⟨_, trees?_chainText depth (compile rule), methodCorrect_compile rule⟩

end EntityGen.TypeScript
