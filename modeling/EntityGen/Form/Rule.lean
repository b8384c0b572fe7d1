import EntityGen.Number.Basic
import EntityGen.Text.Case

/-!
Validation rules of form fields. A rule has a type and attributes; an attribute is a flag, a number
or a text. Rules of arrays have a rule for their items, and rules of objects one for each property.
-/

namespace EntityGen.Form

/-- Attributes that are set or not. -/
inductive Flag where
  | required | nullable
  | email | url | uuid | cuid
  | int | positive | negative | finite | safe
  | nonempty
deriving DecidableEq, Repr

/-- Attributes with a number. -/
inductive Bound where
  | min | max | length
  | gt | gte | lt | lte | multipleOf
  | minItems | maxItems
deriving DecidableEq, Repr

/-- Attributes with a text. `custom` names a predicate of the application. -/
inductive Pattern where
  | includes | startsWith | endsWith | regex
  | custom
deriving DecidableEq, Repr

inductive Attribute where
  | type
  | flag (f : Flag)
  | bound (b : Bound)
  | pattern (p : Pattern)
  | messages
  | i18n
  | item
  | properties
deriving DecidableEq, Repr

def Flag.name : Flag → String
  | .required => "required"
  | .nullable => "nullable"
  | .email => "email"
  | .url => "url"
  | .uuid => "uuid"
  | .cuid => "cuid"
  | .int => "int"
  | .positive => "positive"
  | .negative => "negative"
  | .finite => "finite"
  | .safe => "safe"
  | .nonempty => "nonempty"

def Bound.name : Bound → String
  | .min => "min"
  | .max => "max"
  | .length => "length"
  | .gt => "gt"
  | .gte => "gte"
  | .lt => "lt"
  | .lte => "lte"
  | .multipleOf => "multipleOf"
  | .minItems => "min_items"
  | .maxItems => "max_items"

def Pattern.name : Pattern → String
  | .includes => "includes"
  | .startsWith => "startsWith"
  | .endsWith => "endsWith"
  | .regex => "regex"
  | .custom => "custom"

namespace Attribute

def name : Attribute → String
  | .type => "type"
  | .flag f => f.name
  | .bound b => b.name
  | .pattern p => p.name
  | .messages => "messages"
  | .i18n => "i18n"
  | .item => "item"
  | .properties => "properties"

/-- All attributes, in the order in which they are listed to the user. -/
def all : List Attribute :=
  [.type, .flag .required, .flag .nullable,
    .bound .min, .bound .max, .bound .length,
    .flag .email, .flag .url, .flag .uuid, .flag .cuid,
    .pattern .includes, .pattern .startsWith, .pattern .endsWith, .pattern .regex,
    .bound .gt, .bound .gte, .bound .lt, .bound .lte,
    .flag .int, .flag .positive, .flag .negative, .bound .multipleOf, .flag .finite, .flag .safe,
    .flag .nonempty, .bound .minItems, .bound .maxItems,
    .pattern .custom, .messages, .i18n, .item, .properties]

def ofName? (name : String) : Option Attribute := all.find? (·.name == name)

end Attribute

structure Rule where
  /-- the name of the type; a text if none is given -/
  type : Option String := none
  flag : Flag → Bool := fun _ => false
  bound : Bound → Option Number := fun _ => none
  pattern : Pattern → Option String := fun _ => none
  /-- message templates by attribute -/
  messages : List (String × String) := []
  /-- keys of localized messages by attribute -/
  i18n : List (String × String) := []
  /-- the rule of an array's items -/
  item : Option Rule := none
  /-- the rules of an object's properties -/
  properties : List (String × Rule) := []
deriving Inhabited

/-- The type of a rule. A name that is not known is kept in lower case. -/
inductive RuleType where
  | string
  | number
  | boolean
  | date
  | array
  | object
  | unknown (name : String)
deriving DecidableEq, Repr

/-- The type that a name denotes, in any case. -/
def RuleType.ofName (name : String) : RuleType :=
  match String.ofList (Text.lower name.toList) with
  | "string" => .string
  | "number" => .number
  | "boolean" => .boolean
  | "date" => .date
  | "array" => .array
  | "object" => .object
  | other => .unknown other

def Rule.resolvedType (rule : Rule) : RuleType :=
  match rule.type with
  | none => .string
  | some name => .ofName name

end EntityGen.Form
