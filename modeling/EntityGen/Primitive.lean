import EntityGen.Text.Case

/-! The primitive types of fields, and their names in documents and in generated code. -/

namespace EntityGen

/-- The type of a scalar field. A type name that is not known gives the dynamic type. -/
inductive Primitive where
  | string
  | number
  | date
  | boolean
  | dynamic
deriving DecidableEq, Repr

namespace Primitive

/-- The type that a name denotes, in any case. -/
def ofName (name : String) : Primitive :=
  match String.ofList (Text.lower name.toList) with
  | "string" => .string
  | "number" => .number
  | "date" => .date
  | "boolean" => .boolean
  | _ => .dynamic

def typeScript : Primitive → String
  | .string => "string"
  | .number => "number"
  | .date => "Date"
  | .boolean => "boolean"
  | .dynamic => "any"

end Primitive

end EntityGen
