import EntityGen.Number.Text
import EntityGen.Yaml.Value
import EntityGen.Yaml.Writer.Scalar

/-!
Writing documents. Collections are written in block style with two spaces of indentation; sequences
in mappings are not indented, and a collection in a sequence begins on the line of its mark. A tag
directly on another tag cannot be written.
-/

namespace EntityGen.Yaml.Writer

/-- Where a node is written: at the root, after the colon of a key, or after a mark at the start of
a line. The indentation is that of the collection around it. -/
inductive Position where
  | root
  | afterKey (indent : Nat)
  | afterMark (indent : Nat) (inMapping : Bool)

namespace Position

/-- What stands between the position and a node on the same line. -/
def gap : Position → List Char
  | .root => []
  | _ => [' ']

/-- The indentation of the lines of a scalar. -/
def scalarIndent : Position → Nat
  | .root => 2
  | .afterKey indent => indent + 2
  | .afterMark indent _ => indent + 2

def mappingIndent : Position → Nat
  | .root => 0
  | .afterKey indent => indent + 2
  | .afterMark indent _ => indent + 2

/-- The indentation of a sequence, with a tag or not. -/
def sequenceIndent (isTagged : Bool) : Position → Nat
  | .root => 0
  | .afterKey indent => indent
  | .afterMark indent inMapping => if isTagged && inMapping then indent else indent + 2

/-- A block of lines with an indentation at a position. After a mark it begins on the same line. -/
def place (position : Position) (tag : List Char) (indent : Nat) (block : List Char) : List Char :=
  match position with
  | .root => if tag.isEmpty then block else tag ++ '\n' :: block
  | .afterKey _ => if tag.isEmpty then '\n' :: block else ' ' :: tag ++ '\n' :: block
  | .afterMark .. =>
    if tag.isEmpty then ' ' :: block.drop indent else ' ' :: tag ++ '\n' :: block

end Position

/-- Characters of a tag that are written as they are. -/
def isTagChar (c : Char) : Bool :=
  c.isAlphanum ||
    ['-', ';', '/', '?', ':', '@', '&', '=', '+', '$', ',', '_', '.', '~', '*', '\'', '(', ')',
      '[', ']'].contains c

def tagChar (c : Char) : List Char :=
  if isTagChar c then [c]
  else (String.singleton c).toUTF8.toList.flatMap fun byte => '%' :: hexDigits 2 byte.toNat

def tagText : Option String → List Char
  | none => []
  | some tag => '!' :: tag.toList.flatMap tagChar

def tagged (tag : Option String) (text : List Char) : List Char :=
  if tag.isNone then text else tagText tag ++ ' ' :: text

/-- A text with a line break at its end. -/
def ended (text : List Char) : List Char :=
  match text.getLast? with
  | some c => if isBreak c then text else text ++ ['\n']
  | none => ['\n']

/-- The text of a value on one line, if it is a scalar or an empty collection. -/
def flatText? (indent : Nat) : Value → Option (List Char)
  | .null => some ['n', 'u', 'l', 'l']
  | .bool b => some (if b then ['t', 'r', 'u', 'e'] else ['f', 'a', 'l', 's', 'e'])
  | .int i => some (Number.intText i).toList
  | .float x => some x.documentText.toList
  | .str s => some (scalarText indent s)
  | .seq [] => some ['[', ']']
  | .map [] => some ['\x7b', '\x7d']
  | _ => none

/-- The greatest size in bytes of a key before a colon on the same line. -/
def maxKeySize : Nat := 128

/-- The size that counts for a key: that of its content. -/
def keySize : Value → Nat
  | .str s => s.utf8ByteSize
  | .seq _ | .map _ => 0
  | value => ((flatText? 0 value).getD []).length

def isMultiline : Value → Bool
  | .str s => s.toList.any isBreak
  | _ => false

/-- The text of a key before a colon on the same line, if it can stand there. -/
def keyText? : Value → Option (List Char)
  | .tagged tag value =>
    if isMultiline value || maxKeySize < keySize value + 1 + tag.utf8ByteSize then none
    else (flatText? 0 value).map (tagged (some tag))
  | value => if isMultiline value || maxKeySize < keySize value then none else flatText? 0 value

mutual

/-- A node at a position, with a tag, up to the end of its last line. -/
def nodeText? (position : Position) (tag : Option String) : Value → Option (List Char)
  | .tagged inner value => if tag.isSome then none else nodeText? position (some inner) value
  | .seq (item :: items) => do
    let indent := position.sequenceIndent tag.isSome
    return position.place (tagText tag) indent (← itemsText? indent (item :: items))
  | .map (entry :: entries) => do
    let indent := position.mappingIndent
    return position.place (tagText tag) indent (← entriesText? indent (entry :: entries))
  | value => do
    return position.gap ++ ended (tagged tag (← flatText? position.scalarIndent value))

def itemsText? (indent : Nat) : List Value → Option (List Char)
  | [] => some []
  | item :: items => do
    let first ← nodeText? (.afterMark indent false) none item
    return spaces indent ++ '-' :: first ++ (← itemsText? indent items)

def entriesText? (indent : Nat) : List (Value × Value) → Option (List Char)
  | [] => some []
  | (key, value) :: entries =>
    match keyText? key with
    | some text => do
      let value ← nodeText? (.afterKey indent) none value
      return spaces indent ++ text ++ ':' :: value ++ (← entriesText? indent entries)
    | none => do
      let key ← nodeText? (.afterMark indent true) none key
      let value ← nodeText? (.afterMark indent true) none value
      return spaces indent ++ '?' :: key ++ spaces indent ++ ':' :: value ++
        (← entriesText? indent entries)

end

end Writer

/-- The text of a document that holds a value. -/
def write? (value : Value) : Option String := (Writer.nodeText? .root none value).map String.ofList

end EntityGen.Yaml
