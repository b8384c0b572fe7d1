import EntityGen.Yaml.Token

/-!
Scalars in a YAML text: plain, quoted and block scalars with their folding of line breaks. Each
reader starts at the first character and gives the text and the position after it.
-/

namespace EntityGen.Yaml

/-- Folded line breaks: one break becomes a space, of several the first is dropped. -/
def foldBreaks : List Char → List Char
  | [] => []
  | '\n' :: [] => [' ']
  | '\n' :: more => more
  | breaks => breaks

/-- The space between two words of a scalar: its text when the words are joined, and whether it
holds a line break. -/
structure Gap where
  text : List Char
  broken : Bool
deriving Inhabited

/-- Reads spaces and line breaks. `spaces` and `breaks` hold what was read, the last first. A tab
left of `tabLimit` at the start of a line is refused. -/
def gapFrom? (tabLimit : Int) (broken : Bool) :
    Nat → Cursor → List Char → List Char → Option (Cursor × List Char × List Char)
  | 0, c, spaces, breaks => some (c, spaces, breaks)
  | n + 1, c, spaces, breaks =>
    match c.rest with
    | [] => some (c, spaces, breaks)
    | x :: _ =>
      if isSpace x then
        if broken || !breaks.isEmpty then
          if x == '\t' && (c.column : Int) < tabLimit then none
          else gapFrom? tabLimit broken n c.advance spaces breaks
        else gapFrom? tabLimit broken n c.advance (x :: spaces) breaks
      else if isBreak x then gapFrom? tabLimit broken n c.advance spaces (breakText x :: breaks)
      else some (c, spaces, breaks)

/-- Reads a gap. After an escaped line break (`escaped`) further breaks are kept as they are. -/
def gap? (tabLimit : Int) (escaped : Bool) (c : Cursor) : Option (Cursor × Gap) :=
  (gapFrom? tabLimit escaped c.rest.length c [] []).map fun (c, spaces, breaks) =>
    if escaped then (c, ⟨breaks.reverse, true⟩)
    else if breaks.isEmpty then (c, ⟨spaces.reverse, false⟩)
    else (c, ⟨foldBreaks breaks.reverse, true⟩)

/-! ### Plain scalars -/

/-- Indicators that end a plain scalar inside a flow collection. -/
def isFlowEnd (c : Char) : Bool := [',', '[', ']', '{', '}'].contains c

/-- The next word of a plain scalar. A colon ends it before a gap; in a flow collection a colon may
not touch an indicator. -/
def plainWord? (inFlow : Bool) : List Char → Option (List Char)
  | [] => some []
  | c :: rest =>
    if isSpace c || isBreak c then some []
    else if inFlow && c == ':' && rest.head?.any (fun d => isFlowEnd d || d == '?') then none
    else if (c == ':' && atGap rest) || (inFlow && isFlowEnd c) then some []
    else (plainWord? inFlow rest).map (c :: ·)

/-- Reads on in a plain scalar. `text` holds what was read, the last character first, and `gap` what
lies between it and the next word. -/
def plainFrom? (inFlow : Bool) (indent : Int) :
    Nat → Cursor → List Char → Gap → Option (Cursor × List Char × Bool)
  | 0, c, text, gap => some (c, text, gap.broken)
  | n + 1, c, text, gap =>
    if (c.column == 0 && atDocumentMark c.rest) || c.rest.head? == some '#' then
      some (c, text, gap.broken)
    else do
      let word ← plainWord? inFlow c.rest
      let c := c.skip word.length
      let (text, gap) :=
        if word.isEmpty then (text, gap)
        else (word.reverse ++ (gap.text.reverse ++ text), (⟨[], false⟩ : Gap))
      if c.rest.isEmpty || !atGap c.rest then return (c, text, gap.broken)
      let (c, gap) ← gap? indent false c
      if !inFlow && (c.column : Int) < indent then return (c, text, gap.broken)
      plainFrom? inFlow indent n c text gap

def plainScalar? (inFlow : Bool) (indent : Int) (c : Cursor) : Option (Cursor × String × Bool) :=
  (plainFrom? inFlow indent (c.rest.length + 1) c [] ⟨[], false⟩).map fun (c, text, broken) =>
    (c, String.ofList text.reverse, broken)

/-! ### Quoted scalars -/

def hexValue? (c : Char) : Option Nat :=
  if c.isDigit then some (c.toNat - '0'.toNat)
  else if 'a' ≤ c && c ≤ 'f' then some (c.toNat - 'a'.toNat + 10)
  else if 'A' ≤ c && c ≤ 'F' then some (c.toNat - 'A'.toNat + 10)
  else none

def hexNumber? (digits : List Char) : Option Nat :=
  digits.foldlM (fun value c => (hexValue? c).map (16 * value + ·)) 0

/-- What an escape letter stands for: a character, or a code of that many hexadecimal digits. -/
def escape? : Char → Option (Char ⊕ Nat)
  | '0' => some (.inl '\x00')
  | 'a' => some (.inl '\x07')
  | 'b' => some (.inl '\x08')
  | 't' => some (.inl '\t')
  | '\t' => some (.inl '\t')
  | 'n' => some (.inl '\n')
  | 'v' => some (.inl '\x0b')
  | 'f' => some (.inl '\x0c')
  | 'r' => some (.inl '\r')
  | 'e' => some (.inl '\x1b')
  | ' ' => some (.inl ' ')
  | '"' => some (.inl '"')
  | '/' => some (.inl '/')
  | '\\' => some (.inl '\\')
  | 'N' => some (.inl '\u0085')
  | '_' => some (.inl '\u00a0')
  | 'L' => some (.inl '\u2028')
  | 'P' => some (.inl '\u2029')
  | 'x' => some (.inr 2)
  | 'u' => some (.inr 4)
  | 'U' => some (.inr 8)
  | _ => none

def charOfCode? (code : Nat) : Option Char :=
  if h : code.isValidChar then some (Char.ofNatAux code h) else none

/-- The characters of a quoted scalar up to a gap, a quote or an escaped line break. `text` holds
what was read, the last first; the flag says that an escaped line break was read. -/
def quotedWord? (single : Bool) : Nat → Cursor → List Char → Option (Cursor × List Char × Bool)
  | 0, c, text => some (c, text, false)
  | n + 1, c, text =>
    match single, c.rest with
    | _, [] => some (c, text, false)
    | true, '\'' :: '\'' :: _ => quotedWord? single n (c.skip 2) ('\'' :: text)
    | true, '\'' :: _ => some (c, text, false)
    | false, '"' :: _ => some (c, text, false)
    | false, '\\' :: [] => none
    | false, '\\' :: letter :: rest =>
      if isBreak letter then some ((c.skip 1).advance, text, true)
      else match escape? letter with
        | none => none
        | some (.inl char) => quotedWord? single n (c.skip 2) (char :: text)
        | some (.inr digits) =>
          if rest.length < digits then none
          else do
            let code ← hexNumber? (rest.take digits)
            let char ← charOfCode? code
            quotedWord? single n (c.skip (2 + digits)) (char :: text)
    | _, x :: _ =>
      if isSpace x || isBreak x then some (c, text, false)
      else quotedWord? single n (c.skip 1) (x :: text)

/-- Reads on in a quoted scalar, up to its closing quote. -/
def quotedFrom? (single : Bool) : Nat → Cursor → List Char → Option (Cursor × List Char)
  | 0, _, _ => none
  | n + 1, c, text =>
    if (c.column == 0 && atDocumentMark c.rest) || c.rest.isEmpty then none
    else do
      let (c, text, escaped) ← quotedWord? single c.rest.length c text
      if c.rest.head? == some (if single then '\'' else '"') then
        return (c.skip 1, text)
      let (c, gap) ← gap? (-1) escaped c
      quotedFrom? single n c (gap.text.reverse ++ text)

def quotedScalar? (single : Bool) (c : Cursor) : Option (Cursor × String) :=
  let c := c.skip 1
  (quotedFrom? single (c.rest.length + 1) c []).map fun (c, text) =>
    (c, String.ofList text.reverse)

/-! ### Block scalars -/

/-- What becomes of the line breaks at the end of a block scalar. -/
inductive Chomp where
  | strip
  | clip
  | keep
deriving DecidableEq

def chomp? : Char → Option Chomp
  | '+' => some .keep
  | '-' => some .strip
  | _ => none

/-- The header of a block scalar: chomping and indentation in either order. An indentation of zero
is refused. -/
def blockHeader? (c : Cursor) : Option (Cursor × Chomp × Nat) :=
  let digit? (c : Cursor) : Option (Cursor × Nat) :=
    match c.rest with
    | x :: _ =>
      if x == '0' then none
      else if x.isDigit then some (c.skip 1, x.toNat - '0'.toNat)
      else some (c, 0)
    | [] => some (c, 0)
  let sign (c : Cursor) : Cursor × Chomp :=
    match c.rest.head?.bind chomp? with
    | some chomp => (c.skip 1, chomp)
    | none => (c, .clip)
  match c.rest.head?.bind chomp? with
  | some chomp => (digit? (c.skip 1)).map fun (c, n) => (c, chomp, n)
  | none => (digit? c).map fun (c, n) => if n == 0 then (c, .clip, 0) else
      let (c, chomp) := sign c
      (c, chomp, n)

/-- Reads indentation and empty lines. An `indent` of zero is not yet known: all spaces count, and
`widest` remembers the longest run. -/
def blockBreaks? (indent : Nat) :
    Nat → Cursor → List Char → Nat → Option (Cursor × List Char × Nat)
  | 0, c, breaks, widest => some (c, breaks, widest)
  | n + 1, c, breaks, widest =>
    let spaces := (c.rest.takeWhile (· == ' ')).length
    let c := c.skip (if indent == 0 then spaces else min spaces (indent - c.column))
    let widest := max widest c.column
    match c.rest with
    | [] => some (c, breaks, widest)
    | x :: _ =>
      if (indent == 0 || c.column < indent) && x == '\t' then none
      else if isBreak x then blockBreaks? indent n c.advance (breakText x :: breaks) widest
      else some (c, breaks, widest)

/-- Reads the lines of a block scalar. `text` holds what was read, the last first, `lead` the break
after the last line and `breaks` those of empty lines after it. -/
def blockLines? (folded : Bool) (indent : Nat) :
    Nat → Cursor → List Char → List Char → List Char → Bool →
      Option (Cursor × List Char × List Char × List Char)
  | 0, c, text, lead, breaks, _ => some (c, text, lead, breaks)
  | n + 1, c, text, lead, breaks, leadingSpace =>
    if c.column != indent || c.rest.isEmpty then some (c, text, lead, breaks)
    else do
      let indented := c.rest.head?.any isSpace
      let joined :=
        if folded && lead == ['\n'] && !leadingSpace && !indented then
          if breaks.isEmpty then [' '] else []
        else lead
      let line := c.rest.takeWhile fun x => !isBreak x
      let text := line.reverse ++ (breaks ++ (joined ++ text))
      let c := c.skip line.length
      let lead := (c.rest.head?.map breakText).toList
      let (c, breaks, _) ← blockBreaks? indent c.rest.length c.advance [] 0
      blockLines? folded indent n c text lead breaks indented

/-- Reads a block scalar, from its indicator on. `parent` is the indentation around it. -/
def blockScalar? (folded : Bool) (parent : Int) (c : Cursor) : Option (Cursor × String) := do
  let (c, chomp, increment) ← blockHeader? (c.skip 1)
  let c ← c.skipToLineEnd?
  let c := c.advance
  let given := if increment == 0 then 0 else (max parent 0).toNat + increment
  let (c, breaks, widest) ← blockBreaks? given (c.rest.length + 1) c [] 0
  let indent := if given == 0 then max (max widest (parent + 1).toNat) 1 else given
  let (c, text, lead, breaks) ← blockLines? folded indent (c.rest.length + 1) c [] [] breaks false
  let tail := match chomp with
    | .strip => []
    | .clip => lead
    | .keep => breaks ++ lead
  return (c, String.ofList (tail ++ text).reverse)

end EntityGen.Yaml
