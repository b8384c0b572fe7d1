import EntityGen.Form.Rule
import EntityGen.Schema.Reader

/-!
Forms: for each model the actions, for each action the rules of its fields; and reading them out of
a document's tree. Unlike other records a rule refuses fields it does not know.
-/

namespace EntityGen

open Yaml (Value)

abbrev ActionRules := List (String × Form.Rule)

abbrev FormModel := List (String × ActionRules)

/-- A forms document: the actions of each model, in document order. -/
structure Forms where
  models : List (String × FormModel) := []
deriving Inhabited

namespace Form

/-- What was read of a rule so far, with the names of the attributes that were met. -/
abbrev RuleDraft := Shape.Draft Rule

/-- Sets the value of a function at one point. -/
def setAt {α β : Type} [DecidableEq α] (f : α → β) (a : α) (b : β) : α → β :=
  fun x => if x = a then b else f x

mutual

def readRule : Value → Shape.Result Rule
  | .map entries => (readAttributes entries ⟨{}, []⟩).map (·.record)
  | .null => .ok {}
  | .tagged _ value => readRule value
  | other => .error (.wrongType other "struct ValidationRule")

def readAttributes : List (Value × Value) → RuleDraft → Shape.Result RuleDraft
  | [], draft => .ok draft
  | (key, value) :: rest, draft => do
    let name ← Shape.fieldName key
    match Attribute.ofName? name with
    | none => .error (.unknownField name (Attribute.all.map Attribute.name))
    | some known =>
      if draft.met.contains name then .error (.duplicateField name)
      else do
        let rule := draft.record
        let rule ← match known with
          | .type => (Shape.optional Shape.text value).map fun type => { rule with type }
          | .flag f => (Shape.flag value).map fun b => { rule with flag := setAt rule.flag f b }
          | .bound b =>
            (Shape.optional Shape.number value).map fun x =>
              { rule with bound := setAt rule.bound b x }
          | .pattern p =>
            (Shape.optional Shape.text value).map fun s =>
              { rule with pattern := setAt rule.pattern p s }
          | .messages => (Shape.table Shape.text value).map fun messages => { rule with messages }
          | .i18n => (Shape.table Shape.text value).map fun i18n => { rule with i18n }
          | .item =>
            match value with
            | .null => .ok { rule with item := none }
            | value => (readRule value).map fun item => { rule with item := some item }
          | .properties => (readProperties value).map fun properties => { rule with properties }
        readAttributes rest ⟨rule, name :: draft.met⟩

def readProperties : Value → Shape.Result (List (String × Rule))
  | .map entries => readNamedRules entries []
  | .null => .ok []
  | .tagged _ value => readProperties value
  | other => .error (.wrongType other "a map")

/-- Reads named rules; `done` holds those before. -/
def readNamedRules :
    List (Value × Value) → List (String × Rule) → Shape.Result (List (String × Rule))
  | [], done => .ok done
  | (key, value) :: rest, done => do
    let name ← Shape.text key
    let rule ← readRule value
    readNamedRules rest (Shape.put name rule done)

end

end Form

namespace Forms

def isEmpty (forms : Forms) : Bool := forms.models.isEmpty

/-- Reads a forms document; null is the empty one. -/
def ofValue : Value → Except Malformation Forms
  | .null => .ok {}
  | .map entries =>
    match Shape.table (Shape.table (Shape.table Form.readRule)) (.map entries) with
    | .error cause => .error (.badShape cause)
    | .ok models =>
      match models.find? fun entry => !isModelName entry.1 with
      | some (name, _) => .error (.badModelName name)
      | none => .ok ⟨models⟩
  | other => .error (.notMapping other)

end Forms

end EntityGen
