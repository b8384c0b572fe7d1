/-!
Media types: a type and a subtype, which may have a suffix after a plus sign, and parameters. Names
are the same in any case.
-/

namespace EntityGen.Editor

def isTokenChar (c : Char) : Bool :=
  c.isAlphanum ||
    ['!', '#', '$', '%', '&', '\'', '*', '+', '-', '.', '^', '_', '\x60', '|', '~'].contains c

/-- A token at the start of a text, at least one character long, and the rest. -/
def token? (text : List Char) : Option (List Char × List Char) :=
  let token := text.takeWhile isTokenChar
  if token.isEmpty then none else some (token, text.dropWhile isTokenChar)

def isQuotable (c : Char) : Bool := 0x20 ≤ c.toNat && c.toNat != 0x7F

/-- The text after a quoted value whose opening quote has been read. A quote that comes first does
not end the value. -/
def afterQuoted? (isFirst : Bool) : List Char → Option (List Char)
  | [] => none
  | [c] => if c == '"' && !isFirst then some [] else none
  | c :: d :: rest =>
    if c == '"' && !isFirst then some (d :: rest)
    else if c == '\\' then (if isQuotable d then afterQuoted? false rest else none)
    else if isQuotable c then afterQuoted? false (d :: rest)
    else none

/-- Whether a text, from a semicolon on or empty, is a list of parameters; `n` bounds their
number. -/
def areParameters : Nat → List Char → Bool
  | _, [] => true
  | 0, _ => false
  | n + 1, c :: rest =>
    let rest := rest.dropWhile (· == ' ')
    if c != ';' then false
    else if rest.isEmpty then true
    else match token? rest with
      | some (_, '=' :: '"' :: rest) =>
        match afterQuoted? true rest with
        | some rest => areParameters n (rest.dropWhile (· == ' '))
        | none => false
      | some (_, ['=']) => true
      | some (_, '=' :: rest) =>
        match token? rest with
        | some (_, rest) => areParameters n rest
        | none => false
      | _ => false

/-- The part of a subtype before its last plus sign, and the suffix after it. -/
def splitSuffix (subtype : List Char) : List Char × Option (List Char) :=
  let after := subtype.reverse.takeWhile (· != '+')
  match subtype.reverse.dropWhile (· != '+') with
  | _ :: before =>
    if before.isEmpty then (subtype, none) else (before.reverse, some after.reverse)
  | [] => (subtype, none)

/-- Whether a content type says that a body is JSON. -/
def isJsonType (contentType : String) : Bool :=
  let json := ['j', 's', 'o', 'n']
  let text := contentType.toList.map Char.toLower
  if text.any fun c => 0x7F < c.toNat then false
  else match token? text with
  | some (type, '/' :: rest) =>
    match token? rest with
    | some (subtype, parameters) =>
      let (name, suffix) := splitSuffix subtype
      String.ofList type == "application" && (name == json || suffix == some json) &&
        areParameters (parameters.length + 1) parameters
    | none => false
  | _ => false

end EntityGen.Editor
