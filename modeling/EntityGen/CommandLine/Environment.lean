import EntityGen.Files.Operation
import EntityGen.Text.Blank
import EntityGen.Text.Split
import EntityGen.Text.Word

/-!
The environment of a command: variables that are set to texts. A file named `.env` sets variables
that are not set yet. It is read line by line, and ends at the first line that sets nothing and is
neither blank nor a comment. A value may have parts in quotes and may refer to other variables.
-/

namespace EntityGen.CommandLine

open Files (FileTree Node Path)

/-- Variables and the texts that they are set to. -/
abbrev Environment := List (String × String)

namespace Environment

/-- How the next character of a value is read: for itself, after a backslash, between single quotes,
as part of a name after a dollar sign, as part of a name in braces, as a blank after the value, or as
part of a comment. -/
inductive Mode where
  | text
  | escape
  | single
  | name (chars : List Char)
  | braced (chars : List Char)
  | ended
  | comment
deriving DecidableEq, Repr

/-- A value that is being read: what it is so far, and whether double quotes are open. -/
structure Draft where
  value : List Char := []
  isQuoted : Bool := false
  mode : Mode := .text
deriving DecidableEq, Repr

/-- The text that a reference to a variable stands for. -/
def textOf (environment : Environment) (name : List Char) : List Char :=
  ((environment.lookup (String.ofList name)).getD "").toList

/-- Whether a character belongs to a name after a dollar sign. -/
def isNameChar (c : Char) : Bool := Text.isWordChar c && c != '_'

/-- Whether a character separates a value from a comment. -/
def isGap (c : Char) : Bool := c == ' ' || c == '\t'

def Draft.push (draft : Draft) (c : Char) : Draft :=
  { draft with value := draft.value ++ [c], mode := .text }

/-- Reads a character that is not special by what came before it. -/
def readPlain (draft : Draft) (c : Char) : Draft :=
  if c == '$' then { draft with mode := .name [] }
  else if c == '\\' then { draft with mode := .escape }
  else if c == '"' then { draft with isQuoted := !draft.isQuoted }
  else if draft.isQuoted then draft.push c
  else if c == '\'' then { draft with mode := .single }
  else if isGap c then { draft with mode := .ended }
  else draft.push c

def readEscaped? (draft : Draft) (c : Char) : Option Draft :=
  if ['\\', '\'', '"', '$', ' '].contains c then some (draft.push c)
  else if c == 'n' then some (draft.push '\n')
  else none

/-- Reads a character of a name after a dollar sign, or the first one after the name. -/
def readName (environment : Environment) (draft : Draft) (name : List Char) (c : Char) :
    Draft :=
  if isNameChar c then { draft with mode := .name (name ++ [c]) }
  else if c == '\x7b' && name.isEmpty then { draft with mode := .braced [] }
  else
    let value := draft.value ++ environment.textOf name
    if c == '$' then { draft with value, mode := .name [] }
    else { draft with value := value ++ [c], mode := .text }

def readBraced (environment : Environment) (draft : Draft) (name : List Char) (c : Char) :
    Draft :=
  if c == '\x7d' then
    { draft with value := draft.value ++ environment.textOf name, mode := .text }
  else { draft with mode := .braced (name ++ [c]) }

def readChar? (environment : Environment) (draft : Draft) (c : Char) : Option Draft :=
  match draft.mode with
  | .text => some (readPlain draft c)
  | .escape => readEscaped? draft c
  | .single => some (if c == '\'' then { draft with mode := .text } else
      { draft with value := draft.value ++ [c] })
  | .name name => some (readName environment draft name c)
  | .braced name => some (readBraced environment draft name c)
  | .ended =>
    if isGap c then some draft
    else if c == '#' then some { draft with mode := .comment }
    else none
  | .comment => some draft

def value? (environment : Environment) (text : List Char) : Option String := do
  let draft ← text.foldlM (readChar? environment) {}
  if draft.isQuoted then none
  match draft.mode with
  | .single | .braced _ => none
  | .name name => return String.ofList (draft.value ++ environment.textOf name)
  | _ => return String.ofList draft.value

/-- A key at the start of a text, and the rest. -/
def key? (text : List Char) : Option (List Char × List Char) :=
  let isKeyChar (c : Char) : Bool := c.isAlphanum || c == '_' || c == '.'
  match text with
  | c :: _ =>
    if c.isAlpha || c == '_' then some (text.takeWhile isKeyChar, text.dropWhile isKeyChar) else none
  | [] => none

/-- The text after an equals sign and blanks around it. -/
def afterEquals? (text : List Char) : Option (List Char) :=
  match text.dropWhile Text.isBlank with
  | '=' :: rest => some (rest.dropWhile Text.isBlank)
  | _ => none

/-- A key and the text of its value. The word `export` may stand before the key, and may be one. -/
def assignment? (line : List Char) : Option (List Char × List Char) := do
  let (key, rest) ← key? line
  match afterEquals? rest with
  | some value => return (key, value)
  | none =>
    if key != "export".toList then none
    let (key, rest) ← key? (rest.dropWhile Text.isBlank)
    return (key, ← afterEquals? rest)

/-- Sets a variable, unless it is set. -/
def add (environment : Environment) (name text : String) : Environment :=
  if (environment.lookup name).isSome then environment else environment ++ [(name, text)]

def addLine? (environment : Environment) (line : List Char) : Option Environment := do
  let line := (line.reverse.dropWhile Text.isBlank).reverse.dropWhile Text.isBlank
  if line.isEmpty || line.head? == some '#' then return environment
  let (key, text) ← assignment? line
  let value ← if text.head? == some '#' then some "" else environment.value? text
  return environment.add (String.ofList key) value

/-- What lines set, up to the first one that cannot be read. -/
def addLines (environment : Environment) : List (List UInt8) → Environment
  | [] => environment
  | line :: rest =>
    match (String.fromUTF8? ⟨line.toArray⟩).bind fun text => environment.addLine? text.toList with
    | some environment => addLines environment rest
    | none => environment

/-- The content of the file `.env` that is found first in the given directories. -/
def fileIn? (tree : FileTree) : List Path → Option ByteArray
  | [] => none
  | directory :: rest =>
    match tree.read (Path.join directory ".env") with
    | .ok content => some content
    | .error .notFound | .error .isDirectory => fileIn? tree rest
    | .error _ => none

/-- An environment with what the file `.env` sets that is in a directory or around it. -/
def withFile (environment : Environment) (tree : FileTree) (directory : Path) : Environment :=
  match fileIn? tree directory.ancestors with
  | some content => environment.addLines (Text.split 10 content.data.toList)
  | none => environment

end Environment

end EntityGen.CommandLine
