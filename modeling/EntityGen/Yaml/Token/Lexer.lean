import EntityGen.Yaml.Token.Tag

/-!
From a YAML text to its tokens. Indentation opens and closes block collections, and a colon turns
the token where its key may begin into a key: the lexer remembers such a place for each flow
collection it is in, and puts the key token there once it meets the colon.
-/

namespace EntityGen.Yaml

/-- A place where a key on one line may begin. -/
structure PendingKey where
  /-- how many tokens lie before it -/
  position : Nat
  /-- whether nothing but a key can stand there -/
  required : Bool
  index : Nat
  line : Nat
  column : Nat

/-- What the lexer knows between two tokens. `tokens` holds the last token first; `keys` has an
element for the block context and one for each open flow collection, the innermost first. -/
structure Lexer where
  cursor : Cursor
  tokens : List Token
  count : Nat
  indent : Int
  indents : List Int
  keyAllowed : Bool
  keys : List (Option PendingKey)

namespace Lexer

def start (text : List Char) : Lexer :=
  { cursor := .ofText text, tokens := [], count := 0, indent := -1, indents := [],
    keyAllowed := true, keys := [none] }

/-- Whether the lexer is inside a flow collection. -/
def inFlow (l : Lexer) : Bool := 1 < l.keys.length

def push (l : Lexer) (token : Token) : Lexer :=
  { l with tokens := token :: l.tokens, count := l.count + 1 }

/-- Adds a token before those from a position on. -/
def insert (l : Lexer) (position : Nat) (token : Token) : Lexer :=
  let later := l.count - position
  { l with
    tokens := l.tokens.take later ++ token :: l.tokens.drop later, count := l.count + 1 }

/-- Closes the block collections that are indented deeper than a column. -/
def closeBlocks (column : Int) (l : Lexer) : Lexer :=
  if l.inFlow then l
  else
    let rec close : List Int → Lexer → Lexer
      | outer :: indents, l =>
        if column < l.indent then close indents { l.push .blockEnd with indent := outer, indents }
        else l
      | [], l => l
    close l.indents l

/-- Opens a block collection at a column that is indented deeper than the current one. -/
def openBlock (l : Lexer) (column position : Nat) (token : Token) : Lexer :=
  if !l.inFlow && l.indent < (column : Int) then
    { l.insert position token with indent := column, indents := l.indent :: l.indents }
  else l

/-- Forgets the place where a key might have begun; `none` if only a key could stand there. -/
def dropKey? (l : Lexer) : Option Lexer :=
  match l.keys with
  | some key :: keys => if key.required then none else some { l with keys := none :: keys }
  | _ => some l

/-- Remembers the current place as one where a key may begin. -/
def saveKey? (l : Lexer) : Option Lexer :=
  if l.keyAllowed then do
    let l ← l.dropKey?
    let key : PendingKey :=
      { position := l.count
        required := !l.inFlow && l.indent == l.cursor.column
        index := l.cursor.index
        line := l.cursor.line
        column := l.cursor.column }
    return { l with keys := some key :: l.keys.tail }
  else some l

/-- Forgets places that are on an earlier line or more than 1024 characters back. -/
def dropStaleKeys? (l : Lexer) : Option Lexer := do
  let keys ← l.keys.mapM fun key? =>
    match key? with
    | none => some none
    | some key =>
      if key.line < l.cursor.line || key.index + 1024 < l.cursor.index then
        if key.required then none else some none
      else some (some key)
  return { l with keys }

/-- Moves to the next token over spaces, comments and line breaks. A tab counts as a space where no
key may begin. -/
def skipToToken : Nat → Lexer → Lexer
  | 0, l => l
  | n + 1, l =>
    let c := l.cursor
    let c := if c.column == 0 && c.rest.head? == some '\ufeff' then c.skip 1 else c
    let tabs := l.inFlow || !l.keyAllowed
    let c := c.skipWhile fun x => x == ' ' || (tabs && x == '\t')
    let c := if c.rest.head? == some '#' then c.skipLineRest else c
    if c.rest.head?.any isBreak then
      skipToToken n { l with cursor := c.advance, keyAllowed := l.keyAllowed || !l.inFlow }
    else { l with cursor := c }

/-- Adds the token of an indicator of `n` characters. -/
def indicator (l : Lexer) (n : Nat) (token : Token) (keyAllowed : Bool) : Lexer :=
  { l.push token with cursor := l.cursor.skip n, keyAllowed }

/-- A marker or directive closes all blocks. -/
def leaveDocument? (l : Lexer) : Option Lexer :=
  (l.closeBlocks (-1)).dropKey?.map fun l => { l with keyAllowed := false }

/-- The token of a colon: with a key before it on the line, or else after a key that was marked. -/
def colon? (l : Lexer) : Option Lexer :=
  match l.keys with
  | some key :: keys =>
    let l := (l.insert key.position .key).openBlock key.column key.position .blockMapping
    some ({ l with keys := none :: keys }.indicator 1 .value false)
  | _ =>
    if l.inFlow then some (l.indicator 1 .value false)
    else if !l.keyAllowed then none
    else some ((l.openBlock l.cursor.column l.count .blockMapping).indicator 1 .value true)

/-- The token of a dash or question mark that begins an item or a marked key. -/
def blockItem? (l : Lexer) (collection token : Token) (keyAllowed : Bool) : Option Lexer := do
  let l ←
    if l.inFlow then some l
    else if !l.keyAllowed then none
    else some (l.openBlock l.cursor.column l.count collection)
  let l ← l.dropKey?
  return l.indicator 1 token keyAllowed

def content (l : Lexer) (result? : Option (Cursor × Token)) : Option Lexer := do
  let l ← l.saveKey?
  let (cursor, token) ← result?
  return { l.push token with cursor, keyAllowed := false }

def startsPlain (inFlow : Bool) : List Char → Bool
  | [] => false
  | c :: rest =>
    if c == '-' then !rest.head?.any isSpace
    else if c == '?' || c == ':' then !inFlow && !atGap rest
    else !(isSpace c || isBreak c ||
      [0x2C, 0x5B, 0x5D, 0x7B, 0x7D, 0x23, 0x26, 0x2A, 0x21, 0x7C, 0x3E, 0x27, 0x22, 0x25, 0x40,
        0x60].contains c.toNat)

/-- Reads the next token, which begins at the cursor. -/
def token? (l : Lexer) : Option Lexer :=
  let c := l.cursor
  if c.column == 0 && c.rest.head? == some '%' then do
    let l ← l.leaveDocument?
    let (cursor, token) ← readDirective? c
    return { l.push token with cursor }
  else if c.column == 0 && atMark '-' c.rest then
    l.leaveDocument?.map (·.indicator 3 .documentStart false)
  else if c.column == 0 && atMark '.' c.rest then
    l.leaveDocument?.map (·.indicator 3 .documentEnd false)
  else match c.rest with
    | [] => none
    | x :: rest =>
      let opened (token : Token) : Option Lexer :=
        l.saveKey?.map fun l => { l with keys := none :: l.keys }.indicator 1 token true
      let closed (token : Token) : Option Lexer :=
        l.dropKey?.map fun l =>
          { l with keys := if l.inFlow then l.keys.tail else l.keys }.indicator 1 token false
      let flowOrGap := l.inFlow || atGap rest
      if x == '[' then opened .openSequence
      else if x == '\x7b' then opened .openMapping
      else if x == ']' then closed .closeSequence
      else if x == '\x7d' then closed .closeMapping
      else if x == ',' then l.dropKey?.map (·.indicator 1 .comma true)
      else if x == '-' && atGap rest then l.blockItem? .blockSequence .entry true
      else if x == '?' && flowOrGap then l.blockItem? .blockMapping .key !l.inFlow
      else if x == ':' && flowOrGap then l.colon?
      else if x == '*' then l.content ((readAnchor? c).map fun (c, name) => (c, .alias name))
      else if x == '&' then l.content ((readAnchor? c).map fun (c, name) => (c, .anchor name))
      else if x == '!' then l.content (readTag? l.inFlow c)
      else if (x == '|' || x == '>') && !l.inFlow then do
        let l ← l.dropKey?
        let folded := x == '>'
        let (cursor, text) ← blockScalar? folded l.indent c
        let style := if folded then Style.folded else Style.literal
        return { l.push (.scalar text style) with cursor, keyAllowed := true }
      else if x == '\'' then
        l.content ((quotedScalar? true c).map fun (c, text) => (c, .scalar text .single))
      else if x == '"' then
        l.content ((quotedScalar? false c).map fun (c, text) => (c, .scalar text .double))
      else if startsPlain l.inFlow c.rest then do
        let l ← l.saveKey?
        let (cursor, text, broken) ← plainScalar? l.inFlow (l.indent + 1) c
        return { l.push (.scalar text .plain) with cursor, keyAllowed := broken }
      else none

/-- Reads tokens up to the end of the text. Each takes at least one character. -/
def run? : Nat → Lexer → Option Lexer
  | 0, _ => none
  | n + 1, l => do
    let l ← (skipToToken (l.cursor.rest.length + 1) l).dropStaleKeys?
    let l := l.closeBlocks l.cursor.column
    if l.cursor.rest.isEmpty then (l.closeBlocks (-1)).dropKey?
    else l.token? >>= run? n

end Lexer

/-- The tokens of a text, `none` if it has none. -/
def tokens? (text : List Char) : Option (List Token) :=
  if text.all isAllowed then
    (Lexer.run? (text.length + 1) (.start text)).map (·.tokens.reverse)
  else none

end EntityGen.Yaml
