import EntityGen.Yaml.Scalar
import EntityGen.Yaml.Token

/-!
How a text is written as a scalar. The plainest style is taken that reads back as the same text:
plain, in single quotes, or in double quotes with escapes; texts with line feeds are written as
literal blocks where that is possible.
-/

namespace EntityGen.Yaml.Writer

def isPrintable (c : Char) : Bool :=
  let n := c.toNat
  n == 0x0A || (0x20 ≤ n && n ≤ 0x7E) || (0xA0 ≤ n && n ≤ 0xD7FF) ||
    (0xE000 ≤ n && n ≤ 0xFFFD && n != 0xFEFF) || 0x10000 ≤ n

/-- Whether a character of the first class is directly followed by one of the second. -/
def hasPair (first second : Char → Bool) : List Char → Bool
  | a :: b :: rest => (first a && second b) || hasPair first second (b :: rest)
  | _ => false

def isBlank (c : Char) : Bool := c == ' '

/-- Characters that cannot begin a plain scalar. -/
def isIndicator (c : Char) : Bool :=
  ['#', ',', '[', ']', '\x7b', '\x7d', '&', '*', '!', '|', '>', '\'', '"', '%', '@', '\x60'].contains c

/-- Whether a text is at its end or goes on with a space. -/
def atBlank : List Char → Bool
  | [] => true
  | c :: _ => isBlank c

/-- Whether a text begins like an indicator. -/
def beginsIndicator : List Char → Bool
  | [] => false
  | c :: rest =>
    isIndicator c || ((c == '?' || c == ':' || c == '-') && atBlank rest) ||
      ['-', '-', '-'].isPrefixOf (c :: rest) || ['.', '.', '.'].isPrefixOf (c :: rest)

/-- Whether a text has something inside that ends a plain scalar: a colon before a gap, or a number
sign after one. -/
def hasIndicator : List Char → Bool
  | a :: b :: rest =>
    (b == ':' && atBlank rest) || (isBlank a && b == '#') || hasIndicator (b :: rest)
  | _ => false

/-- Whether a text has characters that need escapes, or spaces before a line break. -/
def needsEscapes (text : List Char) : Bool :=
  text.any (fun c => !isPrintable c) || hasPair isBlank isBreak text

def allowsSingle (text : List Char) : Bool := !needsEscapes text && !hasPair isBreak isBlank text

def allowsLiteral (text : List Char) : Bool :=
  !needsEscapes text && text.getLast? != some ' '

def allowsPlain (text : List Char) : Bool :=
  !needsEscapes text && !text.any isBreak && text.head? != some ' ' &&
    text.getLast? != some ' ' && !beginsIndicator text && !hasIndicator text

/-- Whether a plain scalar of this text would not be a text. -/
def readsOtherwise (text : String) : Bool :=
  hasLeadingZero text.toList ||
    match plainValue? text with
    | some (.str _) => false
    | _ => true

def styleOf (text : String) : Style :=
  let chars := text.toList
  if chars.contains '\n' then (if allowsLiteral chars then .literal else .double)
  else if !readsOtherwise text && allowsPlain chars then .plain
  else if allowsSingle chars then .single
  else .double

def spaces (n : Nat) : List Char := List.replicate n ' '

def hexDigit (n : Nat) : Char := if n < 10 then Char.ofNat (48 + n) else Char.ofNat (55 + n)

/-- The last hexadecimal digits of a number. -/
def hexDigits : Nat → Nat → List Char
  | 0, _ => []
  | count + 1, n => hexDigits count (n / 16) ++ [hexDigit (n % 16)]

/-- What follows the backslash in the escape of a character. -/
def escapeBody (c : Char) : List Char :=
  match c.toNat with
  | 0x00 => ['0']
  | 0x07 => ['a']
  | 0x08 => ['b']
  | 0x09 => ['t']
  | 0x0A => ['n']
  | 0x0B => ['v']
  | 0x0C => ['f']
  | 0x0D => ['r']
  | 0x1B => ['e']
  | 0x22 => ['"']
  | 0x5C => ['\\']
  | 0x85 => ['N']
  | 0x2028 => ['L']
  | 0x2029 => ['P']
  | n =>
    if n ≤ 0xFF then 'x' :: hexDigits 2 n
    else if n ≤ 0xFFFF then 'u' :: hexDigits 4 n
    else 'U' :: hexDigits 8 n

def doubleChar (c : Char) : List Char :=
  if !isPrintable c || isBreak c || c == '"' || c == '\\' then '\\' :: escapeBody c else [c]

def doubleQuoted (text : List Char) : List Char := '"' :: text.flatMap doubleChar ++ ['"']

/-- The inside of a text in single quotes, indented after each line break; `fresh` says that a line
begins. -/
def singleBody (indent : Nat) (fresh : Bool) : List Char → List Char
  | [] => if fresh then spaces indent else []
  | c :: rest =>
    if isBreak c then
      (if !fresh && c == '\n' then ['\n', c] else [c]) ++ singleBody indent true rest
    else
      (if fresh then spaces indent else []) ++ (if c == '\'' then ['\'', c] else [c]) ++
        singleBody indent false rest

def singleQuoted (indent : Nat) (text : List Char) : List Char :=
  '\'' :: singleBody indent false text ++ ['\'']

/-- The lines of a literal block, indented where they are not empty. -/
def literalBody (indent : Nat) (fresh : Bool) : List Char → List Char
  | [] => []
  | c :: rest =>
    if isBreak c then c :: literalBody indent true rest
    else (if fresh then spaces indent else []) ++ c :: literalBody indent false rest

/-- The indentation that a literal block has to declare, because its first line begins with a space
or is empty. -/
def indentationMark (text : List Char) : List Char :=
  match text with
  | c :: _ => if isBlank c || isBreak c then ['2'] else []
  | [] => []

/-- What a literal block declares about the line breaks at its end: one is kept without a mark. -/
def endMark (text : List Char) : List Char :=
  match text.reverse with
  | last :: before =>
    if !isBreak last then ['-']
    else match before with
      | [] => ['+']
      | c :: _ => if isBreak c then ['+'] else []
  | [] => ['-']

def literalBlock (indent : Nat) (text : List Char) : List Char :=
  '|' :: indentationMark text ++ endMark text ++ '\n' :: literalBody indent true text

def scalarText (indent : Nat) (text : String) : List Char :=
  let chars := text.toList
  match styleOf text with
  | .plain => chars
  | .single => singleQuoted indent chars
  | .literal => literalBlock indent chars
  | _ => doubleQuoted chars

end EntityGen.Yaml.Writer
