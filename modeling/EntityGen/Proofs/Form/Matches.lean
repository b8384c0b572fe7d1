import EntityGen.Proofs.Form.Chain

/-! Chains that check the same. They have the same base types and constraints in the same order, at
every depth, and the same messages. Numbers are compared by their text in generated code, and the
message of a base type that any value has is never shown, so it is not compared. -/

namespace EntityGen.Form

open TypeScript

/-! ### Parts of chains -/

/-- Parameters of messages are the same, numbers up to their text. -/
inductive Param.Matches : Param → Param → Prop
  | number {x y : Number} (text : x.sourceText = y.sourceText) : Matches (.number x) (.number y)
  | text {s : String} : Matches (.text s) (.text s)

/-- Parameters of localized messages have the same names, in order, and values. -/
abbrev Params.Matches : Params → Params → Prop :=
  List.Forall₂ fun row other => row.1 = other.1 ∧ row.2.Matches other.2

inductive Message.Matches : Message → Message → Prop
  | literal {text : String} : Matches (.literal text) (.literal text)
  | localized {key : String} {first second : Params} (params : Params.Matches first second) :
      Matches (.localized key first) (.localized key second)

/-- Checks are of the same kind and have the same argument. -/
inductive Check.Matches : Check → Check → Prop
  | flag {f : Flag} : Matches (.flag f) (.flag f)
  | bound {b : Bound} {x y : Number} (text : x.sourceText = y.sourceText) :
      Matches (.bound b x) (.bound b y)
  | pattern {p : Pattern} {s : String} : Matches (.pattern p s) (.pattern p s)
  | optional : Matches .optional .optional
  | requiredMin : Matches .requiredMin .requiredMin

structure Constraint.Matches (c d : Constraint) : Prop where
  check : c.check.Matches d.check
  message : Option.Rel Message.Matches c.message d.message

/-! ### Chains -/

mutual

inductive Chain.Matches : Chain → Chain → Prop
  | mk {a b : Base} {m n : Option Message} {cs ds : List Constraint} (base : a.Matches b)
      (baseMessage : a = .any ∨ Option.Rel Message.Matches m n)
      (constraints : List.Forall₂ Constraint.Matches cs ds) :
      Chain.Matches (.mk a m cs) (.mk b n ds)

inductive Base.Matches : Base → Base → Prop
  | string : Base.Matches .string .string
  | number : Base.Matches .number .number
  | boolean : Base.Matches .boolean .boolean
  | date : Base.Matches .date .date
  | array {a b : Chain} (item : a.Matches b) : Base.Matches (.array a) (.array b)
  | object {a b : List (String × Chain)} (properties : PropertiesMatch a b) :
      Base.Matches (.object a) (.object b)
  | any : Base.Matches .any .any

/-- The properties of objects have the same names, in order, and chains that match. -/
inductive PropertiesMatch : List (String × Chain) → List (String × Chain) → Prop
  | nil : PropertiesMatch [] []
  | cons {name : String} {a b : Chain} {rest others : List (String × Chain)}
      (chain : a.Matches b) (properties : PropertiesMatch rest others) :
      PropertiesMatch ((name, a) :: rest) ((name, b) :: others)

end

end EntityGen.Form
