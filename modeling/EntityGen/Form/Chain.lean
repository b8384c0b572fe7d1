import EntityGen.Form.Message
import EntityGen.Form.Reader
import EntityGen.Naming

/-!
Constraint chains: what a validation rule checks, in the fixed order in which the checks are
written. A chain has a base type and constraints; those of strings, numbers and arrays come first,
then the predicate of the application, then whether the value may be null or missing.
-/

namespace EntityGen.Form

/-- What a constraint checks. `requiredMin` is the least length of one that a required text has. -/
inductive Check where
  | flag (f : Flag)
  | bound (b : Bound) (x : Number)
  | pattern (p : Pattern) (s : String)
  | optional
  | requiredMin
deriving DecidableEq, Repr

/-- A check with the message shown where it fails. -/
structure Constraint where
  check : Check
  message : Option Message
deriving DecidableEq, Repr

mutual

/-- The base type of a chain. -/
inductive Base where
  | string
  | number
  | boolean
  | date
  | array (item : Chain)
  | object (properties : List (String × Chain))
  | any

/-- A base type, the message for a value of another type, and constraints in order. -/
inductive Chain where
  | mk (base : Base) (baseMessage : Option Message) (constraints : List Constraint)

end

namespace Chain

def base : Chain → Base
  | .mk base _ _ => base

def baseMessage : Chain → Option Message
  | .mk _ message _ => message

def constraints : Chain → List Constraint
  | .mk _ _ constraints => constraints

/-- The chain that accepts everything, for arrays without a rule for their items. -/
def any : Chain := .mk .any none []

end Chain

namespace Rule

/-- The message of a rule for an attribute: a localized one goes before a template. -/
def message? (rule : Rule) (key : String) (params : Params) : Option Message :=
  match rule.i18n.lookup key with
  | some localized => some (.localized localized params)
  | none => (rule.messages.lookup key).map fun template => .literal (substitute params template)

def constraint? (rule : Rule) : Attribute → Option Constraint
  | .flag f => if rule.flag f then some ⟨.flag f, rule.message? f.name []⟩ else none
  | .bound b => (rule.bound b).map fun x => ⟨.bound b x, rule.message? b.name [(b.name, .number x)]⟩
  | .pattern p =>
    (rule.pattern p).map fun s => ⟨.pattern p s, rule.message? p.name [(p.name, .text s)]⟩
  | _ => none

end Rule

def stringAttributes : List Attribute :=
  [.bound .min, .bound .max, .bound .length, .flag .email, .flag .url, .flag .uuid, .flag .cuid,
    .pattern .includes, .pattern .startsWith, .pattern .endsWith, .pattern .regex]

def numberAttributes : List Attribute :=
  [.bound .gt, .bound .gte, .bound .lt, .bound .lte, .flag .int, .flag .positive, .flag .negative,
    .bound .multipleOf, .flag .finite, .flag .safe]

def arrayAttributes : List Attribute := [.flag .nonempty, .bound .minItems, .bound .maxItems]

def RuleType.attributes : RuleType → List Attribute
  | .string => stringAttributes
  | .number => numberAttributes
  | .array => arrayAttributes
  | _ => []

namespace Rule

/-- Whether the value may be null. No message belongs to it. -/
def nullable? (rule : Rule) : Option Constraint :=
  if rule.flag .nullable then some ⟨.flag .nullable, none⟩ else none

/-- Whether the value may be missing; a text that may not has at least one character. -/
def presence? (rule : Rule) : Option Constraint :=
  if !rule.flag .required then some ⟨.optional, none⟩
  else if rule.resolvedType = .string then
    some ⟨.requiredMin, rule.message? "required" [("min", .number (.ofInt 1))]⟩
  else none

def constraints (rule : Rule) : List Constraint :=
  rule.resolvedType.attributes.filterMap rule.constraint? ++
    (rule.constraint? (.pattern .custom)).toList ++ rule.nullable?.toList ++ rule.presence?.toList

end Rule

mutual

def compile : Rule → Chain
  | ⟨type, flag, bound, pattern, messages, i18n, item, properties⟩ =>
    let rule : Rule := ⟨type, flag, bound, pattern, messages, i18n, item, properties⟩
    let base := match rule.resolvedType with
      | .string => .string
      | .number => .number
      | .boolean => .boolean
      | .date => .date
      | .array => .array (compileItem item)
      | .object => .object (compileProperties properties)
      | .unknown _ => .any
    .mk base (rule.message? "type" []) rule.constraints

def compileItem : Option Rule → Chain
  | none => .any
  | some rule => compile rule

def compileProperties : List (String × Rule) → List (String × Chain)
  | [] => []
  | (name, rule) :: rest => (name, compile rule) :: compileProperties rest

end

def isLocalized : Option Message → Bool
  | some (.localized ..) => true
  | _ => false

/-- Whether a check calls a predicate of the application. -/
def Check.isCustom : Check → Bool
  | .pattern .custom _ => true
  | _ => false

mutual

/-- Whether a constraint of a chain, or of one inside it, satisfies a condition; `onBase` is asked
of the message for the base type. -/
def Chain.has (onBase : Option Message → Bool) (onConstraint : Constraint → Bool) : Chain → Bool
  | .mk base message constraints =>
    onBase message || constraints.any onConstraint || Base.has onBase onConstraint base

/-- Whether a chain inside a base type has such a constraint. -/
def Base.has (onBase : Option Message → Bool) (onConstraint : Constraint → Bool) : Base → Bool
  | .array item => Chain.has onBase onConstraint item
  | .object properties => hasIn onBase onConstraint properties
  | _ => false

/-- Whether the chain of a property has such a constraint. -/
def hasIn (onBase : Option Message → Bool) (onConstraint : Constraint → Bool) :
    List (String × Chain) → Bool
  | [] => false
  | (_, chain) :: rest => Chain.has onBase onConstraint chain || hasIn onBase onConstraint rest

end

/-- Whether a chain has a localized message, at any depth. -/
def Chain.usesLocalized (chain : Chain) : Bool :=
  chain.has isLocalized fun constraint => isLocalized constraint.message

/-- Whether a chain calls a predicate of the application, at any depth. -/
def Chain.usesCustom (chain : Chain) : Bool :=
  chain.has (fun _ => false) fun constraint => constraint.check.isCustom

/-- An action of a ruleset: the chains of its fields. -/
structure Action where
  name : String
  /-- the name as part of a type name -/
  pascal : String
  fields : List (String × Chain)

/-- The ruleset of a model: its actions in document order. -/
structure Ruleset where
  names : ModelNames
  actions : List Action

namespace Ruleset

def ofModel (name : String) (model : FormModel) : Ruleset where
  names := Naming.names name
  actions := model.map fun (action, rules) =>
    ⟨action, Naming.pascal action, rules.map fun (field, rule) => (field, compile rule)⟩

def any (ruleset : Ruleset) (condition : Chain → Bool) : Bool :=
  ruleset.actions.any fun action => action.fields.any fun field => condition field.2

def usesLocalized (ruleset : Ruleset) : Bool := ruleset.any Chain.usesLocalized

def usesCustom (ruleset : Ruleset) : Bool := ruleset.any Chain.usesCustom

end Ruleset

end EntityGen.Form
