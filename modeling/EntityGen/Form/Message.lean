import EntityGen.Number.Text
import EntityGen.Text.Word

/-!
Messages of validation rules. A template may hold placeholders, a word between braces, for the
parameters of its rule; all of them are replaced in one pass, and replaced text is not read again.
-/

namespace EntityGen.Form

inductive Param where
  | number (x : Number)
  | text (s : String)
deriving DecidableEq, Repr

def Param.display : Param → String
  | .number x => x.sourceText
  | .text s => s

abbrev Params := List (String × Param)

/-- A message: literal text, or the key of a localized text with the rule's parameters. -/
inductive Message where
  | literal (text : String)
  | localized (key : String) (params : Params)
deriving DecidableEq, Repr

/-- The word of the placeholder whose opening brace has been read, with the text after its closing
brace. -/
def placeholder? (text : List Char) : Option (List Char × List Char) :=
  let word := text.takeWhile Text.isWordChar
  match text.dropWhile Text.isWordChar with
  | '\x7d' :: rest => if word.isEmpty then none else some (word, rest)
  | _ => none

/-- What a placeholder becomes: the first parameter of its name, or itself. -/
def placeholderText (params : Params) (word : List Char) : List Char :=
  match params.lookup (String.ofList word) with
  | some param => param.display.toList
  | none => '\x7b' :: word ++ ['\x7d']

/-- Replaces the placeholders of a template that has at most `fuel` characters. -/
def substituteWithin (params : Params) : Nat → List Char → List Char
  | 0, text => text
  | _, [] => []
  | fuel + 1, c :: rest =>
    if c == '\x7b' then
      match placeholder? rest with
      | some (word, rest) => placeholderText params word ++ substituteWithin params fuel rest
      | none => c :: substituteWithin params fuel rest
    else c :: substituteWithin params fuel rest

/-- Replaces the placeholders of a template. -/
def substitute (params : Params) (template : String) : String :=
  String.ofList (substituteWithin params template.toList.length template.toList)

end EntityGen.Form
