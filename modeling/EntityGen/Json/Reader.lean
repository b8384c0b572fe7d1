import EntityGen.Json.Number

/-!
Reading JSON texts. A value that is kept must be valid in all respects; one that is passed over
(`kept` is false) may hold numbers that are too great, unpaired surrogates and any depth of nesting.
-/

namespace EntityGen.Json

def isSpace (c : Char) : Bool := c == ' ' || c == '\n' || c == '\t' || c == '\r'

/-- A text without the white space at its start. -/
def skipSpace (text : List Char) : List Char := text.dropWhile isSpace

def hexValue? (c : Char) : Option Nat :=
  if c.isDigit then some (c.toNat - '0'.toNat)
  else if 'a' ≤ c && c ≤ 'f' then some (c.toNat - 'a'.toNat + 10)
  else if 'A' ≤ c && c ≤ 'F' then some (c.toNat - 'A'.toNat + 10)
  else none

/-- Four hexadecimal digits. -/
def unit? : List Char → Option (Nat × List Char)
  | a :: b :: c :: d :: rest => do
    return (((← hexValue? a) * 16 + (← hexValue? b)) * 256 + (← hexValue? c) * 16 + (← hexValue? d),
      rest)
  | _ => none

/-- The character of an escape of one letter. -/
def simpleEscape? : Char → Option Char
  | '"' => some '"'
  | '\\' => some '\\'
  | '/' => some '/'
  | 'b' => some '\x08'
  | 'f' => some '\x0c'
  | 'n' => some '\n'
  | 'r' => some '\r'
  | 't' => some '\t'
  | _ => none

def isHighSurrogate (n : Nat) : Bool := 0xD800 ≤ n && n < 0xDC00

def isLowSurrogate (n : Nat) : Bool := 0xDC00 ≤ n && n < 0xE000

/-- The character of an escape whose backslash has been read. -/
def escape? (kept : Bool) : List Char → Option (Char × List Char)
  | 'u' :: rest => do
    let (n, rest) ← unit? rest
    if !kept then return ('u', rest)
    if isLowSurrogate n then none
    if !isHighSurrogate n then return (Char.ofNat n, rest)
    match rest with
    | '\\' :: 'u' :: rest =>
      let (low, rest) ← unit? rest
      if isLowSurrogate low then
        return (Char.ofNat (0x10000 + (n - 0xD800) * 0x400 + (low - 0xDC00)), rest)
      else none
    | _ => none
  | c :: rest => (simpleEscape? c).map (·, rest)
  | [] => none

/-- The rest of a string whose opening quote has been read, in at most the given number of steps. -/
def stringBody? (kept : Bool) : Nat → List Char → Option (List Char × List Char)
  | 0, _ => none
  | _, [] => none
  | n + 1, c :: rest =>
    if c == '"' then some ([], rest)
    else if c == '\\' then do
      let (c, rest) ← escape? kept rest
      let (body, rest) ← stringBody? kept n rest
      return (c :: body, rest)
    else if c.toNat < 0x20 then none
    else (stringBody? kept n rest).map fun (body, rest) => (c :: body, rest)

def string? (kept : Bool) (text : List Char) : Option (String × List Char) :=
  (stringBody? kept (text.length + 1) text).map fun (body, rest) => (String.ofList body, rest)

/-- A key and the colon after it; the opening quote of the key has been read. -/
def key? (kept : Bool) (text : List Char) : Option (String × List Char) := do
  let (key, rest) ← string? kept text
  match skipSpace rest with
  | ':' :: rest => return (key, rest)
  | _ => none

def afterWord? (word : String) (text : List Char) : Option (List Char) :=
  if word.toList.isPrefixOf text then some (text.drop word.length) else none

mutual

/-- Reads a value, in a given number of steps, where less than `depth` collections may be nested. -/
def value? (kept : Bool) (depth : Nat) : Nat → List Char → Option (Json × List Char)
  | 0, _ => none
  | n + 1, text =>
    match skipSpace text with
    | 'n' :: rest => (afterWord? "ull" rest).map (.null, ·)
    | 't' :: rest => (afterWord? "rue" rest).map (.bool true, ·)
    | 'f' :: rest => (afterWord? "alse" rest).map (.bool false, ·)
    | '"' :: rest => (string? kept rest).map fun (s, rest) => (.str s, rest)
    | '[' :: rest =>
      if depth ≤ 1 then none
      else match skipSpace rest with
        | ']' :: rest => some (.arr [], rest)
        | rest => (items? kept (depth - 1) n rest).map fun (items, rest) => (.arr items, rest)
    | '\x7b' :: rest =>
      if depth ≤ 1 then none
      else match skipSpace rest with
        | '\x7d' :: rest => some (.obj [], rest)
        | rest =>
          (entries? kept (depth - 1) n rest).map fun (entries, rest) => (sortedObj entries, rest)
    | text => do
      let (numeral, rest) ← numeral? text
      match numeral.value? with
      | some value => return (value, rest)
      | none => if kept then none else return (.null, rest)

def items? (kept : Bool) (depth : Nat) : Nat → List Char → Option (List Json × List Char)
  | 0, _ => none
  | n + 1, text => do
    let (item, rest) ← value? kept depth n text
    match skipSpace rest with
    | ']' :: rest => return ([item], rest)
    | ',' :: rest =>
      let (items, rest) ← items? kept depth n rest
      return (item :: items, rest)
    | _ => none

def entries? (kept : Bool) (depth : Nat) :
    Nat → List Char → Option (List (String × Json) × List Char)
  | 0, _ => none
  | n + 1, text =>
    match skipSpace text with
    | '"' :: rest => do
      let (key, rest) ← key? kept rest
      let (value, rest) ← value? kept depth n rest
      match skipSpace rest with
      | '\x7d' :: rest => return ([(key, value)], rest)
      | ',' :: rest =>
        let (entries, rest) ← entries? kept depth n rest
        return ((key, value) :: entries, rest)
      | _ => none
    | _ => none

end

/-- Less than this many collections may be nested in a text. -/
def maxDepth : Nat := 128

/-- Reads a value that is kept, inside one collection. -/
def keptValue? (text : List Char) : Option (Json × List Char) :=
  value? true (maxDepth - 1) (text.length + 1) text

/-- Reads a value that is passed over. -/
def passedValue? (text : List Char) : Option (List Char) :=
  (value? false (text.length + 2) (text.length + 1) text).map (·.2)

end EntityGen.Json
