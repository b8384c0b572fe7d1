import EntityGen.Yaml.Token.Scalar

/-! Anchors, aliases, tags and directives in a YAML text. -/

namespace EntityGen.Yaml

/-- Characters of a tag besides name characters; `verbatim` adds those of a tag in brackets. -/
def isTagChar (verbatim : Bool) (c : Char) : Bool :=
  isNameChar c ||
    [';', '/', '?', ':', '@', '&', '=', '+', '$', '.', '%', '!', '~', '*', '\'', '(', ')'].contains c ||
    (verbatim && [',', '[', ']'].contains c)

/-- How many octets a character takes whose first octet is given. -/
def octetCount? (octet : Nat) : Option Nat :=
  if octet < 0x80 then some 1
  else if octet < 0xC0 then none
  else if octet < 0xE0 then some 2
  else if octet < 0xF0 then some 3
  else if octet < 0xF8 then some 4
  else none

/-- The octet of a percent escape, and the text after it. -/
def percentOctet? : List Char → Option (Nat × List Char)
  | '%' :: high :: low :: rest => do return (← hexNumber? [high, low], rest)
  | _ => none

/-- The trailing octets of a character, and the text after them. -/
def trailingOctets? : Nat → List Char → Option (List Nat × List Char)
  | 0, text => some ([], text)
  | n + 1, text => do
    let (octet, text) ← percentOctet? text
    if octet / 0x40 != 2 then none
    else do
      let (octets, text) ← trailingOctets? n text
      return (octet :: octets, text)

/-- The character of a run of percent escapes, and the text after it. Octets that encode no
character give the replacement character. -/
def percentChar? (text : List Char) : Option (Char × List Char) := do
  let (first, text) ← percentOctet? text
  let count ← octetCount? first
  let (octets, text) ← trailingOctets? (count - 1) text
  let bytes := ByteArray.mk ((first :: octets).map Nat.toUInt8).toArray
  let char := (String.fromUTF8? bytes).bind (·.toList.head?)
  return (char.getD '\ufffd', text)

/-- The text of a tag with its percent escapes resolved, and the text after it. -/
def tagText? (verbatim : Bool) : Nat → List Char → Option (List Char × List Char)
  | 0, text => some ([], text)
  | n + 1, text =>
    match text with
    | [] => some ([], [])
    | c :: rest =>
      if !isTagChar verbatim c then some ([], text)
      else do
        let (char, rest) ← if c == '%' then percentChar? text else some (c, rest)
        let (chars, rest) ← tagText? verbatim n rest
        return (char :: chars, rest)

def readTagText? (verbatim : Bool) (c : Cursor) : Option (Cursor × List Char) :=
  (tagText? verbatim c.rest.length c.rest).map fun (text, rest) =>
    (c.skip (c.rest.length - rest.length), text)

/-- Reads a handle: an exclamation mark, name characters, and a second mark if there is one. -/
def readHandle? (c : Cursor) : Option (Cursor × List Char) :=
  match c.rest with
  | '!' :: rest =>
    let name := rest.takeWhile isNameChar
    let handle := '!' :: name ++ (if (rest.drop name.length).head? == some '!' then ['!'] else [])
    some (c.skip handle.length, handle)
  | _ => none

/-- Reads a tag, from its exclamation mark on. Inside a flow collection a comma may follow it. -/
def readTag? (inFlow : Bool) (c : Cursor) : Option (Cursor × Token) := do
  let (c, handle, text) ←
    match c.rest with
    | '!' :: '<' :: _ => do
      let (c, text) ← readTagText? true (c.skip 2)
      if text.isEmpty || c.rest.head? != some '>' then none else some (c.skip 1, [], text)
    | _ => do
      let (c, handle) ← readHandle? c
      let (c, text) ← readTagText? false c
      if 1 < handle.length && handle.getLast? == some '!' then
        if text.isEmpty then none else some (c, handle, text)
      else
        let text := handle.tail ++ text
        some (if text.isEmpty then (c, [], ['!']) else (c, ['!'], text))
  if atGap c.rest || (inFlow && c.rest.head? == some ',') then
    some (c, .tag (String.ofList handle) (String.ofList text))
  else none

def readAnchor? (c : Cursor) : Option (Cursor × String) :=
  let c := c.skip 1
  let name := c.rest.takeWhile isNameChar
  let c := c.skip name.length
  let ends := atGap c.rest ||
    c.rest.head?.any fun x => [0x3F, 0x3A, 0x2C, 0x5D, 0x7D, 0x25, 0x40, 0x60].contains x.toNat
  if name.isEmpty || !ends then none else some (c, String.ofList name)

/-- Reads a part of a version number, of at most nine digits. -/
def readVersionPart? (c : Cursor) : Option (Cursor × Nat) :=
  let digits := c.rest.takeWhile Char.isDigit
  if digits.isEmpty || 9 < digits.length then none
  else some (c.skip digits.length, digits.foldl (fun n x => 10 * n + (x.toNat - '0'.toNat)) 0)

/-- Reads a directive, from its percent sign on, and the rest of its line. -/
def readDirective? (c : Cursor) : Option (Cursor × Token) := do
  let c := c.skip 1
  let name := String.ofList (c.rest.takeWhile isNameChar)
  let c := c.skip name.length
  if name.isEmpty || !atGap c.rest then none
  else do
    let c := c.skipWhile isSpace
    let (c, token) ←
      if name == "YAML" then do
        let (c, major) ← readVersionPart? c
        if c.rest.head? != some '.' then none
        else do
          let (c, minor) ← readVersionPart? (c.skip 1)
          some (c, Token.version major minor)
      else if name == "TAG" then do
        let (c, handle) ← readHandle? c
        if 1 < handle.length && handle.getLast? != some '!' then none
        else if !c.rest.head?.any isSpace then none
        else do
          let (c, text) ← readTagText? true (c.skipWhile isSpace)
          if text.isEmpty || !atGap c.rest then none
          else some (c, Token.tagPrefix (String.ofList handle) (String.ofList text))
      else none
    let c ← c.skipToLineEnd?
    return (c.advance, token)

end EntityGen.Yaml
