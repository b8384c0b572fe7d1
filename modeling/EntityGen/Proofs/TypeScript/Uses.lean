import EntityGen.Proofs.Form.Compiled
import EntityGen.Proofs.TypeScript.Expression
import EntityGen.Proofs.TypeScript.Ruleset
import EntityGen.Proofs.TypeScript.Statement

/-! What the schemas of a ruleset use of what its file imports. They call the function that
localizes messages, and refer to the module of the application's predicates. -/

namespace EntityGen.TypeScript

open Form

/-! ### Names in code -/

def Tree.isWord (name : String) : Tree → Bool
  | .atom (.word text) => text == name
  | _ => false

def Tree.isPoint : Tree → Bool
  | .atom (.mark '.') => true
  | _ => false

mutual

/-- Whether a name is used inside a tree. -/
def usesInside (name : String) (follows : Option Tree → Bool) : Tree → Bool
  | .atom _ => false
  | .group _ inside => uses name follows false inside

/-- Whether a name is used in trees, at any depth: it stands there, not as a property behind a
point, and `follows` holds of what is behind it. The trees stand behind a point or not. -/
def uses (name : String) (follows : Option Tree → Bool) : Bool → List Tree → Bool
  | _, [] => false
  | afterPoint, tree :: rest =>
    (!afterPoint && tree.isWord name && follows rest.head?) || usesInside name follows tree ||
      uses name follows tree.isPoint rest

end

/-- Arguments follow a name that is called. -/
def startsArguments : Option Tree → Bool
  | some (.group .round _) => true
  | _ => false

/-- A colon follows a name that is the key of a property. -/
def endsKey : Option Tree → Bool
  | some (.atom (.mark ':')) => true
  | _ => false

/-- Code calls a function. -/
def CallsFunction (name code : String) : Prop :=
  ∃ trees, trees? code.toList = some trees ∧ uses name startsArguments false trees = true

/-- Code refers to a name, other than as the key of a property. -/
def RefersTo (name code : String) : Prop :=
  ∃ trees, trees? code.toList = some trees ∧
    uses name (fun next => !endsKey next) false trees = true

/-! ### Pieces of code -/

/-- Whether a name is used in some trees and more behind them is known from either. -/
def Tells (name : String) (follows : Option Tree → Bool) (trees : List Tree) (used : Bool) : Prop :=
  ∀ rest, uses name follows false (trees ++ rest) = (used || uses name follows false rest)

/-- A name, and what follows it where it is used: the code of a chain has it for the localizing
function (`t`) or the module of predicates (`validators`), and nowhere else. -/
structure Sought (name : String) (follows : Option Tree → Bool) : Prop where
  noWord : name ∉ ["z", "message", "new", "RegExp", "v", "null", "length"]
  noNumber : ∃ c ∈ name.toList, Number.isNumberChar c = false
  key : follows (some (markTree ':')) = false
  localizer : name = "t" → ∀ inside, follows (some (.group .round inside)) = true
  predicate : name = "validators" → ∀ predicate, follows (memberTrees predicate).head? = true

variable {name : String} {follows : Option Tree → Bool} {first second : List Tree} {a b : Bool}

namespace Tells

theorem uses_eq (h : Tells name follows first a) : uses name follows false first = a := by
  have hAll := h []
  rw [List.append_nil, uses, Bool.or_false] at hAll
  exact hAll

theorem nil : Tells name follows [] false := fun _ => (Bool.false_or _).symm

theorem append (h : Tells name follows first a) (hMore : Tells name follows second b) :
    Tells name follows (first ++ second) (a || b) := by
  intro rest
  rw [List.append_assoc, h, hMore, Bool.or_assoc]

theorem group (bracket : Bracket) (inside : List Tree) :
    Tells name follows [.group bracket inside] (uses name follows false inside) := by
  intro rest
  simp [uses, usesInside, Tree.isWord, Tree.isPoint]

theorem literal (text : String) : Tells name follows [literalTree text] false := by
  intro rest
  simp [uses, usesInside, Tree.isWord, Tree.isPoint, literalTree]

theorem mark {c : Char} (h : c ≠ '.') : Tells name follows [markTree c] false := by
  intro rest
  simp [uses, usesInside, Tree.isWord, Tree.isPoint, markTree, h]

theorem comma : Tells name follows [markTree ','] false := mark (by decide)

theorem word {text : String} (h : text ≠ name) : Tells name follows [wordTree text] false := by
  intro rest
  simp [uses, usesInside, Tree.isWord, Tree.isPoint, wordTree, h]

/-- A name that is what it is looked for, by what is behind it. -/
theorem there (h : ∀ rest, follows (second ++ rest).head? = true) :
    Tells name follows (wordTree name :: second) true := by
  intro rest
  simp only [List.cons_append, uses, wordTree, Tree.isWord, beq_self_eq_true, h, Bool.not_false,
    Bool.true_and, Bool.true_or]

/-- What stands behind a point is a property. -/
theorem property (text : String) : Tells name follows [markTree '.', wordTree text] false := by
  intro rest
  simp [uses, usesInside, Tree.isWord, Tree.isPoint, wordTree, markTree]

theorem member (text : String) : Tells name follows (memberTrees text) false := by
  rw [memberTrees]
  split
  · exact property text
  · have hGroup : Tells name follows [.group .square [literalTree text]] _ := .group .square _
    rwa [(literal text).uses_eq] at hGroup

theorem call (call : Call) :
    Tells name follows call.trees (uses name follows false call.arguments) := by
  have hMethod : Tells name follows [markTree '.', wordTree call.method] false :=
    property call.method
  exact hMethod.append (group .round call.arguments)

end Tells

/-! ### Messages and calls -/

namespace Sought

variable (h : Sought name follows)
include h

theorem ne_word {text : String}
    (hText : text ∈ ["z", "message", "new", "RegExp", "v", "null", "length"]) : text ≠ name :=
  fun hSame => h.noWord (hSame ▸ hText)

/-- No number is written with the letters of the name. -/
theorem ne_number {magnitude : List Char} (hChars : ∀ c ∈ magnitude, Number.isNumberChar c = true) :
    String.ofList magnitude ≠ name := by
  rintro rfl
  obtain ⟨c, hc, hNone⟩ := h.noNumber
  rw [String.toList_ofList] at hc
  rw [hChars c hc] at hNone
  cases hNone

theorem tells_number (x : Number) : Tells name follows (numberTrees x) false := by
  have hChars := x.isNumberChar_sourceText
  rw [numberTrees, signedTrees.eq_def]
  split
  · rename_i magnitude hText
    rw [hText, List.forall_mem_cons] at hChars
    exact (Tells.mark (by decide)).append (.word (h.ne_number hChars.2))
  · exact .word (h.ne_number hChars)

theorem tells_key (key : String) : Tells name follows [keyTree key, markTree ':'] false := by
  intro rest
  rw [keyTree]
  split <;>
    simp [uses, usesInside, Tree.isWord, Tree.isPoint, wordTree, literalTree, markTree,
      show follows (some (.atom (.mark ':'))) = false from h.key]

theorem tells_paramRow (row : String × Param) : Tells name follows (paramRowTrees row) false := by
  have hValue : Tells name follows (paramTrees row.2) false := by
    cases row.2 with
    | number x => exact h.tells_number x
    | text s => exact .literal s
  exact (h.tells_key row.1).append hValue

theorem tells_paramRows (params : Params) : Tells name follows (paramRowsTrees params) false := by
  induction params with
  | nil => exact .nil
  | cons row rest ih =>
    exact (Tells.comma.append (h.tells_paramRow row)).append ih

theorem tells_params (params : Params) : Tells name follows (paramsTrees params) false := by
  cases params with
  | nil => exact .nil
  | cons row rest =>
    have hInside := ((h.tells_paramRow row).append (h.tells_paramRows rest)).uses_eq
    have hGroup : Tells name follows
        [.group .curly (paramRowTrees row ++ paramRowsTrees rest)] _ := .group .curly _
    rw [hInside] at hGroup
    exact Tells.comma.append hGroup

/-- The localizing function is called for a message that is localized. -/
theorem tells_message (message : Message) :
    Tells name follows (messageTrees message) (name == "t" && isLocalized (some message)) := by
  cases message with
  | literal text =>
    have hLiteral : Tells name follows [literalTree text] false := .literal text
    rwa [← Bool.and_false (name == "t")] at hLiteral
  | localized key params =>
    by_cases hName : name = "t"
    · subst hName
      exact .there fun _ => h.localizer rfl _
    · have hInside := ((Tells.literal key).append (h.tells_params params)).uses_eq
      have hGroup : Tells name follows
          [.group .round ([literalTree key] ++ paramsTrees params)] _ := .group .round _
      rw [hInside] at hGroup
      rw [beq_eq_false_iff_ne.mpr hName, Bool.false_and]
      exact (Tells.word (Ne.symm hName)).append hGroup

theorem tells_messageTree (message : Message) :
    Tells name follows [messageTree message] (name == "t" && isLocalized (some message)) := by
  have hLabel : Tells name follows [wordTree "message", markTree ':'] false :=
    (Tells.word (h.ne_word (by decide))).append (.mark (by decide))
  have hInside := (hLabel.append (h.tells_message message)).uses_eq
  rw [Bool.false_or] at hInside
  rw [← hInside]
  exact .group .curly _

theorem tells_messageArgument (message : Option Message) :
    Tells name follows (messageArgumentTrees message) (name == "t" && isLocalized message) := by
  cases message with
  | none =>
    rw [show isLocalized none = false from rfl, Bool.and_false]
    exact .nil
  | some content => exact h.tells_messageTree content

theorem tells_remark (message : Option Message) :
    Tells name follows (remarkTrees message) (name == "t" && isLocalized message) := by
  cases message with
  | none =>
    rw [show isLocalized none = false from rfl, Bool.and_false]
    exact .nil
  | some content => exact Tells.comma.append (h.tells_messageTree content)

/-- The module of predicates is referred to for a predicate. -/
theorem tells_custom (s : String) :
    Tells name follows (patternTrees s .custom) (name == "validators") := by
  by_cases hName : name = "validators"
  · subst hName
    refine .there fun rest => ?_
    have hHead : (memberTrees s ++ rest).head? = (memberTrees s).head? := by
      rw [memberTrees]
      split <;> rfl
    rw [hHead]
    exact h.predicate rfl s
  · rw [beq_eq_false_iff_ne.mpr hName]
    exact (Tells.word (Ne.symm hName)).append (.member s)

theorem tells_lengthTest : Tells name follows lengthTestTrees false := by
  have hValue : ("v" == name) = false := beq_eq_false_iff_ne.mpr (h.ne_word (by decide))
  have hNull : ("null" == name) = false := beq_eq_false_iff_ne.mpr (h.ne_word (by decide))
  have hDigit : ∀ c ∈ ['1'], Number.isNumberChar c = true :=
    List.forall_mem_singleton.mpr (by decide)
  have hOne : ("1" == name) = false := beq_eq_false_iff_ne.mpr (h.ne_number hDigit)
  intro rest
  simp [lengthTestTrees, uses, usesInside, Tree.isWord, Tree.isPoint, wordTree, markTree, hOne,
    hValue, hNull]

theorem tells_pattern (s : String) (p : Pattern) :
    Tells name follows (patternTrees s p)
      (name == "validators" && (Check.pattern p s).isCustom) := by
  cases p with
  | custom => simpa only [Check.isCustom, Bool.and_true] using h.tells_custom s
  | regex =>
    have hWords : Tells name follows [wordTree "new", wordTree "RegExp"] false :=
      (Tells.word (h.ne_word (by decide))).append (.word (h.ne_word (by decide)))
    have hGroup : Tells name follows [.group .round [literalTree s]] _ := .group .round _
    rw [(Tells.literal s).uses_eq] at hGroup
    simpa [patternTrees, Check.isCustom] using hWords.append hGroup
  | _ => simpa [patternTrees, Check.isCustom] using Tells.literal s

/-- The call of a check uses the localizing function for its message, unless it shows none, and the
module of predicates if it is a predicate. -/
theorem tells_check (message : Option Message) (check : Check) :
    Tells name follows (checkTrees message check)
      ((name == "t" && (!check.silent && isLocalized message)) ||
        (name == "validators" && check.isCustom)) := by
  have hMessage := h.tells_messageArgument message
  have hRemark := h.tells_remark message
  have hLengthTest := h.tells_lengthTest.append hRemark
  cases check with
  | flag f =>
    cases f with
    | nullable => simpa [checkTrees, Check.silent, Check.isCustom] using Tells.nil
    | _ => simpa [checkTrees, Check.silent, Check.isCustom] using hMessage
  | bound b x =>
    have hBound := (h.tells_number x).append hRemark
    simpa [checkTrees, Check.silent, Check.isCustom] using hBound
  | pattern p s =>
    rw [Bool.or_comm]
    exact (h.tells_pattern s p).append hRemark
  | optional => simpa [checkTrees, Check.silent, Check.isCustom] using Tells.nil
  | requiredMin => simpa [checkTrees, Check.silent, Check.isCustom] using hLengthTest

end Sought

/-! ### Chains -/

/-- Whether the call of a constraint uses a name. -/
def usedBy (name : String) (c : Constraint) : Bool :=
  (name == "t" && (!c.check.silent && isLocalized c.message)) ||
    (name == "validators" && c.check.isCustom)

/-- Whether the code of a chain uses a name. -/
def chainUses (name : String) (follows : Option Tree → Bool) (chain : Chain) : Bool :=
  uses name follows false (chainExpression chain).trees

namespace Sought

variable (h : Sought name follows)
include h

theorem tells_calls (wrapped : Bool) (constraints : List Constraint) :
    Tells name follows ((shownCalls wrapped constraints).flatMap Call.trees)
      (constraints.any (usedBy name)) := by
  have hCustom (wrapped : Bool) (check : Check) :
      (shownCheck wrapped check).isCustom = check.isCustom := by
    cases check with
    | requiredMin => cases wrapped <;> rfl
    | _ => rfl
  induction constraints generalizing wrapped with
  | nil => exact .nil
  | cons c rest ih =>
    have hArguments := (h.tells_check c.message (shownCheck wrapped c.check)).uses_eq
    have hCall : Tells name follows (shownCall wrapped c).trees _ := .call _
    rw [show uses name follows false (shownCall wrapped c).arguments = _ from hArguments,
      silent_shownCheck, hCustom] at hCall
    rw [shownCalls, List.flatMap_cons, List.any_cons]
    exact hCall.append (ih _)

theorem tells_chain (base : Base) (message : Option Message) (constraints : List Constraint) :
    Tells name follows (chainExpression (.mk base message constraints)).trees
      (uses name follows false (baseTrees message base) || constraints.any (usedBy name)) := by
  have hBase : Tells name follows (Call.trees ⟨baseMethod base, baseTrees message base⟩) _ :=
    .call _
  have hCalls := hBase.append (h.tells_calls false constraints)
  rw [chainExpression]
  exact (Tells.word (h.ne_word (by decide))).append hCalls

theorem chainUses_mk (base : Base) (message : Option Message) (constraints : List Constraint) :
    chainUses name follows (.mk base message constraints) =
      (uses name follows false (baseTrees message base) || constraints.any (usedBy name)) :=
  (h.tells_chain base message constraints).uses_eq

theorem tells_chainUses (chain : Chain) :
    Tells name follows (chainExpression chain).trees (chainUses name follows chain) := by
  obtain ⟨base, message, constraints⟩ := chain
  rw [h.chainUses_mk]
  exact h.tells_chain base message constraints

theorem uses_array (item : Chain) (message : Option Message) :
    uses name follows false (baseTrees message (.array item)) =
      (chainUses name follows item || (name == "t" && isLocalized message)) := by
  rw [baseTrees]
  exact ((h.tells_chainUses item).append (h.tells_remark message)).uses_eq

theorem tells_properties (rows : List (String × Chain)) :
    Tells name follows (propertyTrees rows) (rows.any fun row => chainUses name follows row.2) := by
  induction rows with
  | nil => exact .nil
  | cons row rest ih =>
    obtain ⟨key, chain⟩ := row
    exact (h.tells_key key).append ((h.tells_chainUses chain).append (Tells.comma.append ih))

theorem uses_object (rows : List (String × Chain)) (message : Option Message) :
    uses name follows false (baseTrees message (.object rows)) =
      ((rows.any fun row => chainUses name follows row.2) ||
        (name == "t" && isLocalized message)) := by
  have hGroup : Tells name follows [.group .curly (propertyTrees rows)] _ := .group .curly _
  rw [(h.tells_properties rows).uses_eq] at hGroup
  rw [baseTrees]
  exact (hGroup.append (h.tells_remark message)).uses_eq

theorem uses_messageArgument (message : Option Message) :
    uses name follows false (messageArgumentTrees message) = (name == "t" && isLocalized message) :=
  (h.tells_messageArgument message).uses_eq

end Sought

theorem soughtLocalizer : Sought "t" startsArguments where
  noWord := by decide
  noNumber := ⟨'t', by decide, by decide⟩
  key := rfl
  localizer := fun _ _ => rfl
  predicate := fun h => absurd h (by decide)

theorem soughtPredicates : Sought "validators" (fun next => !endsKey next) where
  noWord := by decide
  noNumber := ⟨'v', by decide, by decide⟩
  key := rfl
  localizer := fun h => absurd h (by decide)
  predicate := fun _ s => by
    rw [memberTrees]
    split <;> rfl

/-! ### Predicates of the application -/

theorem validators_ne_t : ("validators" == "t") = false := by decide

theorem usedBy_validators : usedBy "validators" = fun c => c.check.isCustom := by
  funext c
  rw [usedBy, validators_ne_t, Bool.false_and, Bool.false_or, beq_self_eq_true, Bool.true_and]

mutual

/-- The code of a chain refers to the module of predicates if it calls a predicate, at any depth. -/
theorem chainUses_validators : ∀ chain : Chain,
    chainUses "validators" (fun next => !endsKey next) chain = chain.usesCustom
  | .mk base message constraints => by
    rw [soughtPredicates.chainUses_mk, usedBy_validators, uses_base_validators message base,
      Chain.usesCustom, Chain.has, Bool.false_or, Bool.or_comm]

theorem uses_base_validators (message : Option Message) : ∀ base : Base,
    uses "validators" (fun next => !endsKey next) false (baseTrees message base) =
      base.has (fun _ => false) fun c => c.check.isCustom
  | .string => soughtPredicates.uses_messageArgument message
  | .number => soughtPredicates.uses_messageArgument message
  | .boolean => soughtPredicates.uses_messageArgument message
  | .date => soughtPredicates.uses_messageArgument message
  | .any => rfl
  | .array item => by
    rw [soughtPredicates.uses_array, validators_ne_t, Bool.false_and, Bool.or_false,
      chainUses_validators item]
    rfl
  | .object rows => by
    rw [soughtPredicates.uses_object, validators_ne_t, Bool.false_and, Bool.or_false,
      chainsUse_validators rows]
    rfl

theorem chainsUse_validators : ∀ rows : List (String × Chain),
    (rows.any fun row => chainUses "validators" (fun next => !endsKey next) row.2) =
      hasIn (fun _ => false) (fun c => c.check.isCustom) rows
  | [] => rfl
  | (_, chain) :: rest => by
    rw [List.any_cons, chainUses_validators chain, chainsUse_validators rest]
    rfl

end

/-! ### Localized messages -/

/-- A rule hides a localized message, or one inside it does: that for a value of another type, if
the type is not known and any value will do. -/
inductive HidesMessage : Rule → Prop
  | unknown {rule : Rule} {tag key : String} (type : rule.resolvedType = .unknown tag)
      (localized : rule.i18n.lookup "type" = some key) : HidesMessage rule
  | item {rule item : Rule} (type : rule.resolvedType = .array) (there : rule.item = some item)
      (hides : HidesMessage item) : HidesMessage rule
  | property {rule : Rule} {row : String × Rule} (type : rule.resolvedType = .object)
      (there : row ∈ rule.properties) (hides : HidesMessage row.2) : HidesMessage rule

theorem hidesMessage_iff {rule : Rule} : HidesMessage rule ↔
    ((∃ tag, rule.resolvedType = .unknown tag) ∧ ∃ key, rule.i18n.lookup "type" = some key) ∨
      (rule.resolvedType = .array ∧ ∃ item, rule.item = some item ∧ HidesMessage item) ∨
      (rule.resolvedType = .object ∧ ∃ row ∈ rule.properties, HidesMessage row.2) := by
  constructor
  · intro h
    cases h with
    | unknown hType hLocalized => exact .inl ⟨⟨_, hType⟩, _, hLocalized⟩
    | item hType hThere hHides => exact .inr (.inl ⟨hType, _, hThere, hHides⟩)
    | property hType hThere hHides => exact .inr (.inr ⟨hType, _, hThere, hHides⟩)
  · rintro (⟨⟨_, hType⟩, _, hLocalized⟩ | ⟨hType, _, hThere, hHides⟩ | ⟨hType, _, hThere, hHides⟩)
    · exact .unknown hType hLocalized
    · exact .item hType hThere hHides
    · exact .property hType hThere hHides

theorem isLocalized_message?_iff {rule : Rule} {key : String} {params : Params} :
    isLocalized (rule.message? key params) = true ↔ ∃ text, rule.i18n.lookup key = some text := by
  rw [Rule.message?]
  cases rule.i18n.lookup key with
  | some text => simp [isLocalized]
  | none => cases rule.messages.lookup key <;> simp [isLocalized]

/-- What shows no message has none in the chain of a rule. -/
theorem any_usedBy_localizer (rule : Rule) :
    rule.constraints.any (usedBy "t") = rule.constraints.any fun c => isLocalized c.message := by
  have hApart : ("t" == "validators") = false := by decide
  have hSame (c : Constraint) (hc : c ∈ rule.constraints) :
      usedBy "t" c = isLocalized c.message := by
    rw [usedBy, hApart, Bool.false_and, Bool.or_false, beq_self_eq_true, Bool.true_and]
    cases hSilent : c.check.silent with
    | false => rw [Bool.not_false, Bool.true_and]
    | true =>
      rw [(rule.constraints_constrain.messages c hc).silent hSilent]
      rfl
  rw [Bool.eq_iff_iff, List.any_eq_true, List.any_eq_true]
  exact exists_congr fun c => and_congr_right fun hc => by rw [hSame c hc]

/-- The localized messages inside a base type are shown or hidden. -/
def BaseAgrees (rule : Rule) (message : Option Message) : Prop :=
  (isLocalized message = true ∨
      rule.base.has isLocalized (fun c => isLocalized c.message) = true) ↔
    uses "t" startsArguments false (baseTrees message rule.base) = true ∨ HidesMessage rule

theorem usesLocalized_iff_of_base {rule : Rule} (h : BaseAgrees rule (rule.message? "type" [])) :
    (compile rule).usesLocalized = true ↔
      chainUses "t" startsArguments (compile rule) = true ∨ HidesMessage rule := by
  rw [BaseAgrees] at h
  rw [compile_eq, soughtLocalizer.chainUses_mk, Chain.usesLocalized, Chain.has,
    any_usedBy_localizer, Bool.or_eq_true, Bool.or_eq_true, Bool.or_eq_true, or_right_comm, h,
    or_right_comm]

mutual

/-- A chain counts a localized message just if its code calls the localizing function or the rule
hides one. -/
theorem usesLocalized_iff : ∀ rule : Rule, (compile rule).usesLocalized = true ↔
    chainUses "t" startsArguments (compile rule) = true ∨ HidesMessage rule
  | ⟨type, flag, bound, pattern, messages, i18n, item, properties⟩ => by
    have hItem := usesLocalized_item_iff item
    have hProperties := usesLocalized_properties_iff properties
    apply usesLocalized_iff_of_base
    have hMessage := soughtLocalizer.uses_messageArgument
      (Rule.message? ⟨type, flag, bound, pattern, messages, i18n, item, properties⟩ "type" [])
    rw [BaseAgrees, hidesMessage_iff, Rule.base]
    split
    case h_1 hType => simp [Base.has, baseTrees, hMessage, hType]
    case h_2 hType => simp [Base.has, baseTrees, hMessage, hType]
    case h_3 hType => simp [Base.has, baseTrees, hMessage, hType]
    case h_4 hType => simp [Base.has, baseTrees, hMessage, hType]
    case h_5 hType =>
      rw [Chain.usesLocalized] at hItem
      simp only [soughtLocalizer.uses_array, Base.has, hItem, hType]
      simp [or_left_comm, or_assoc]
    case h_6 hType =>
      simp only [soughtLocalizer.uses_object, Base.has, hProperties, hType]
      simp [or_left_comm, or_assoc]
    case h_7 hType =>
      rw [isLocalized_message?_iff]
      simp [Base.has, baseTrees, uses, hType]

theorem usesLocalized_item_iff : ∀ item : Option Rule,
    (compileItem item).usesLocalized = true ↔
      chainUses "t" startsArguments (compileItem item) = true ∨
        ∃ rule, item = some rule ∧ HidesMessage rule
  | none => by
    have hNone : chainUses "t" startsArguments (.mk .any none []) = false :=
      soughtLocalizer.chainUses_mk .any none []
    simp [hNone, compileItem, Chain.any, Chain.usesLocalized, Chain.has, Base.has, isLocalized]
  | some rule => by simpa [compileItem] using usesLocalized_iff rule

theorem usesLocalized_properties_iff : ∀ properties : List (String × Rule),
    hasIn isLocalized (fun c => isLocalized c.message) (compileProperties properties) = true ↔
      ((compileProperties properties).any fun row => chainUses "t" startsArguments row.2) = true ∨
        ∃ row ∈ properties, HidesMessage row.2
  | [] => by simp [compileProperties, hasIn]
  | (name, rule) :: rest => by
    have hRule := usesLocalized_iff rule
    have hRest := usesLocalized_properties_iff rest
    rw [Chain.usesLocalized] at hRule
    simp only [compileProperties, hasIn, List.any_cons, Bool.or_eq_true, hRule, hRest,
      List.exists_mem_cons_iff]
    rw [or_or_or_comm]

end

/-! ### Files -/

/-- The schema of an action as an expression. -/
def schemaText (action : Action) : String := chainText 0 (.mk (.object action.fields) none [])

/-- The code of an action, with the empty line before it. -/
def actionText (names : ModelNames) (action : Action) : String :=
  "\nexport const " ++ schemaName names action ++ " = " ++ schemaText action ++
    "\n\nexport type " ++ formName names action ++ " = z.infer<typeof " ++
      schemaName names action ++ ">\n"

theorem propertiesText_zero (fields : List (String × Chain)) :
    (propertiesText 0 fields).toList =
      fields.flatMap fun field => lineChars (formFieldLine field) := by
  induction fields with
  | nil => rfl
  | cons field rest ih =>
    rw [propertiesText_cons, ih, List.flatMap_cons]
    simp [propertyLine, formFieldLine, lineChars, indentation]

theorem schemaText_toList (action : Action) : (schemaText action).toList =
    ("z.object(" ++ openBrace ++ "\n").toList ++
      ((action.fields.flatMap fun field => lineChars (formFieldLine field)) ++
        (closeBrace ++ ")").toList) := by
  rw [schemaText, chainText, baseText, ← propertiesText_zero]
  simp [arguments, messageArgument, constraintCalls, call, indentation]

theorem fileText_actionLines (names : ModelNames) (action : Action) :
    fileText (actionLines names action) = actionText names action := by
  refine String.toList_inj.mp ?_
  delta actionText
  rw [fileText_toList]
  simp only [String.toList_append, schemaText_toList]
  simp [actionLines, lineChars, List.flatMap_map]

theorem fileText_append (lines more : List String) :
    fileText (lines ++ more) = fileText lines ++ fileText more := by
  rw [← String.toList_inj, String.toList_append, fileText_toList, fileText_toList, fileText_toList,
    List.flatMap_append]

/-- The file of a ruleset: what it imports, then its actions. -/
theorem rulesetText_parts (paths : ImportPaths) (ruleset : Ruleset) :
    rulesetText paths ruleset = fileText ((rulesetImports paths ruleset).map Statement.line) ++
      String.join (ruleset.actions.map (actionText ruleset.names)) := by
  have hActions : fileText (ruleset.actions.flatMap (actionLines ruleset.names)) =
      String.join (ruleset.actions.map (actionText ruleset.names)) := by
    induction ruleset.actions with
    | nil => rfl
    | cons action rest ih =>
      rw [List.flatMap_cons, fileText_append, fileText_actionLines, ih, List.map_cons,
        String.join_cons]
  rw [rulesetText, rulesetLines_eq, fileText_append, hActions]

/-- The schema of an action uses a name if the code of one of its fields does. -/
theorem Sought.schema_iff (h : Sought name follows) (action : Action) :
    (∃ trees, trees? (schemaText action).toList = some trees ∧
      uses name follows false trees = true) ↔
        ∃ field ∈ action.fields, chainUses name follows field.2 = true := by
  have hUses : chainUses name follows (.mk (.object action.fields) none []) =
      action.fields.any fun field => chainUses name follows field.2 := by
    rw [h.chainUses_mk, h.uses_object]
    simp [isLocalized]
  rw [← List.any_eq_true, ← hUses, schemaText, trees?_chainText]
  simp [chainUses]

/-- The names that the file of a ruleset imports, by what its schemas count. -/
theorem mem_rulesetImports_iff (paths : ImportPaths) (ruleset : Ruleset) (name : String) :
    name ∈ (rulesetImports paths ruleset).flatMap Statement.imports ↔
      name = "z" ∨ (name = "t" ∧ ruleset.usesLocalized = true) ∨
        (name = "validators" ∧ ruleset.usesCustom = true) := by
  rw [rulesetImports]
  cases ruleset.usesLocalized <;> cases ruleset.usesCustom <;> simp [Statement.imports]

/-- The file of a ruleset imports the module of predicates just if a schema refers to it. It imports
the localizing function just if a schema calls it or a rule hides a localized message; for a message
that is hidden, the import is of no use. -/
theorem rulesetImports_iff (paths : ImportPaths) (name : String) (model : FormModel) :
    rulesetText paths (.ofModel name model) =
        fileText ((rulesetImports paths (.ofModel name model)).map Statement.line) ++
          String.join ((Ruleset.ofModel name model).actions.map (actionText (Naming.names name))) ∧
      ("t" ∈ (rulesetImports paths (.ofModel name model)).flatMap Statement.imports ↔
        (∃ action ∈ (Ruleset.ofModel name model).actions, CallsFunction "t" (schemaText action)) ∨
          ∃ action ∈ model, ∃ field ∈ action.2, HidesMessage field.2) ∧
      ("validators" ∈ (rulesetImports paths (.ofModel name model)).flatMap Statement.imports ↔
        ∃ action ∈ (Ruleset.ofModel name model).actions,
          RefersTo "validators" (schemaText action)) := by
  refine ⟨rulesetText_parts paths _, ?_, ?_⟩
  · simp only [CallsFunction, soughtLocalizer.schema_iff, mem_rulesetImports_iff]
    simp [Ruleset.usesLocalized, Ruleset.any, Ruleset.ofModel, usesLocalized_iff, and_or_left,
      exists_or]
  · simp only [RefersTo, soughtPredicates.schema_iff, mem_rulesetImports_iff, chainUses_validators]
    simp [Ruleset.usesCustom, Ruleset.any]

/-- A document with a rule of a type that is not known and a localized message for values of
another type. -/
def hiddenMessage : Yaml.Value :=
  .map [(.str "User", .map [(.str "create", .map [(.str "c", .map [
    (.str "type", .str "color"), (.str "i18n", .map [(.str "type", .str "k")])])])])]

/-- The document is read, and the file of its model imports the localizing function, which none of
its schemas calls. -/
theorem rulesetImports_unused : ∃ forms model, Forms.ofValue hiddenMessage = .ok forms ∧
    ("User", model) ∈ forms.models ∧
    "t" ∈ (rulesetImports {} (.ofModel "User" model)).flatMap Statement.imports ∧
    ¬∃ action ∈ (Ruleset.ofModel "User" model).actions, CallsFunction "t" (schemaText action) := by
  refine ⟨_, _, rfl, List.mem_cons_self, ?_, ?_⟩
  · refine (rulesetImports_iff {} "User" _).2.1.mpr (.inr ⟨_, List.mem_cons_self, _,
      List.mem_cons_self, ?_⟩)
    exact .unknown rfl rfl
  · rintro ⟨action, hAction, hCalls⟩
    obtain ⟨field, hField, hUse⟩ := (soughtLocalizer.schema_iff action).mp hCalls
    obtain rfl := List.mem_singleton.mp hAction
    obtain rfl := List.mem_singleton.mp hField
    exact absurd hUse (by decide)

end EntityGen.TypeScript
