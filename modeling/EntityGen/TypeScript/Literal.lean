/-!
String literals in generated code: the text between single quotes, with backslashes before quotes,
backslashes and the three control characters that have a letter.
-/

namespace EntityGen.TypeScript

/-- How one character is written between single quotes. -/
def literalChar (c : Char) : List Char :=
  match c with
  | '\\' => ['\\', '\\']
  | '\'' => ['\\', '\'']
  | '\n' => ['\\', 'n']
  | '\r' => ['\\', 'r']
  | '\t' => ['\\', 't']
  | c => [c]

def literal (text : String) : String :=
  String.ofList ('\'' :: text.toList.flatMap literalChar ++ ['\''])

/-- Whether a name can be written without quotes as a property. -/
def isIdentifier (name : String) : Bool :=
  match name.toList with
  | [] => false
  | first :: rest =>
    (first.isAlpha || first == '_' || first == '$') &&
      rest.all fun c => c.isAlphanum || c == '_' || c == '$'

/-- The key of a property in an object or class. -/
def propertyKey (name : String) : String := if isIdentifier name then name else literal name

/-- The access to a property, written after the object. -/
def member (name : String) : String :=
  if isIdentifier name then "." ++ name else "[" ++ literal name ++ "]"

/-- The access to a property of an object that may be missing. -/
def optionalMember (name : String) : String :=
  if isIdentifier name then "?." ++ name else "?.[" ++ literal name ++ "]"

end EntityGen.TypeScript
