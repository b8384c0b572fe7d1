import EntityGen.Json.Reader

/-! Literals between single quotes as the language of the generated code reads them (ECMAScript 2019,
strict code): the value is a list of UTF-16 code units, and the text may write them by escapes and go
on in the next line. A text without a backslash is read as it is, unless it has a quote or a line
break. -/

namespace EntityGen.TypeScript

/-- The code units of a code point. -/
def unitsOf (point : Nat) : List Nat :=
  if point < 0x10000 then [point]
  else [0xD800 + (point - 0x10000) / 0x400, 0xDC00 + (point - 0x10000) % 0x400]

/-- The code units of a text. -/
def unitsOfText (text : List Char) : List Nat := text.flatMap fun c => unitsOf c.toNat

/-- Where the scanner is in a literal. -/
inductive Mode where
  | plain
  /-- behind a backslash -/
  | escape
  /-- behind an escaped zero, which no digit may follow -/
  | zero
  /-- behind an escaped carriage return, to which a line feed may belong -/
  | continued
  /-- behind the letter of an escape with four digits, or with digits between braces -/
  | unicode
  /-- in an escape with a fixed number of digits, of which `left` and one more are still to come -/
  | digits (left value : Nat)
  /-- in an escape between braces; `met` is whether there was a digit -/
  | braces (value : Nat) (met : Bool)
deriving DecidableEq

/-- What a character comes to: code units, and the mode behind it, none behind the closing quote. -/
abbrev Step := List Nat × Option Mode

def plainStep? : Char → Option Step
  | '\'' => some ([], none)
  | '\\' => some ([], some .escape)
  | '\n' => none
  | '\r' => none
  | c => some (unitsOf c.toNat, some .plain)

def escapeStep? : Char → Option Step
  | 'b' => some ([0x08], some .plain)
  | 't' => some ([0x09], some .plain)
  | 'n' => some ([0x0A], some .plain)
  | 'v' => some ([0x0B], some .plain)
  | 'f' => some ([0x0C], some .plain)
  | 'r' => some ([0x0D], some .plain)
  | 'x' => some ([], some (.digits 1 0))
  | 'u' => some ([], some .unicode)
  | '0' => some ([0], some .zero)
  | '\r' => some ([], some .continued)
  | c =>
    if c.isDigit then none
    else if c ∈ ['\n', '\u2028', '\u2029'] then some ([], some .plain)
    else some (unitsOf c.toNat, some .plain)

def digitStep? (left value : Nat) (c : Char) : Option Step :=
  (Json.hexValue? c).map fun digit =>
    match left with
    | 0 => ([16 * value + digit], some .plain)
    | left + 1 => ([], some (.digits left (16 * value + digit)))

def braceStep? (value : Nat) (met : Bool) (c : Char) : Option Step :=
  if c = '\x7d' then
    if met then some (unitsOf value, some .plain) else none
  else
    (Json.hexValue? c).bind fun digit =>
      if 16 * value + digit ≤ 0x10FFFF then some ([], some (.braces (16 * value + digit) true))
      else none

def step? : Mode → Char → Option Step
  | .plain, c => plainStep? c
  | .escape, c => escapeStep? c
  | .zero, c => if c.isDigit then none else plainStep? c
  | .continued, c => if c = '\n' then some ([], some .plain) else plainStep? c
  | .unicode, c => if c = '\x7b' then some ([], some (.braces 0 false)) else digitStep? 3 0 c
  | .digits left value, c => digitStep? left value c
  | .braces value met, c => braceStep? value met c

/-- The code units of a literal up to its closing quote, and the text behind the quote. -/
def scan? : Mode → List Char → Option (List Nat × List Char)
  | _, [] => none
  | mode, c :: rest =>
    match step? mode c with
    | none => none
    | some (units, none) => some (units, rest)
    | some (units, some next) =>
      (scan? next rest).map fun (more, behind) => (units ++ more, behind)

/-- Reads a literal at the start of a text. -/
def readLiteral? : List Char → Option (List Nat × List Char)
  | '\'' :: rest => scan? .plain rest
  | _ => none

/-- Whether a character cannot stand in a literal as it is, apart from the backslash. -/
def breaksLiteral (c : Char) : Bool := c == '\'' || c == '\n' || c == '\r'

theorem plainStep?_of_ordinary {c : Char} (h : breaksLiteral c = false) (hBackslash : c ≠ '\\') :
    plainStep? c = some (unitsOf c.toNat, some .plain) := by
  simp only [breaksLiteral, Bool.or_eq_false_iff, beq_eq_false_iff_ne] at h
  rw [plainStep?]
  · exact h.1.1
  · exact hBackslash
  · exact h.1.2
  · exact h.2

/-- A text without a backslash, between quotes, is a literal with the text as its value just if it
has no quote and no line break. -/
theorem readLiteral?_eq_some_iff {text : List Char} (hBackslash : '\\' ∉ text) (rest : List Char) :
    readLiteral? ('\'' :: (text ++ '\'' :: rest)) = some (unitsOfText text, rest) ↔
      ∀ c ∈ text, breaksLiteral c = false := by
  rw [readLiteral?]
  induction text with
  | nil => simp [scan?, step?, plainStep?, unitsOfText]
  | cons c text ih =>
    rw [List.mem_cons, not_or] at hBackslash
    rw [List.cons_append, scan?, step?, List.forall_mem_cons]
    cases hBreaks : breaksLiteral c with
    | true =>
      refine iff_of_false (fun hRead => ?_) (fun h => absurd h.1 (by decide))
      simp only [breaksLiteral, Bool.or_eq_true, beq_iff_eq] at hBreaks
      rcases hBreaks with (rfl | rfl) | rfl
      · -- the literal ends at this quote, with a part of the text still to come
        have hRest := congrArg List.length (Prod.mk.inj (Option.some.inj hRead)).2
        simp only [List.length_append, List.length_cons] at hRest
        omega
      · cases hRead
      · cases hRead
    | false =>
      rw [plainStep?_of_ordinary hBreaks (Ne.symm hBackslash.1), ← ih hBackslash.2]
      simp [unitsOfText, Option.map_eq_some_iff, Prod.ext_iff]

/-- A text between quotes is a literal that denotes the text, whatever follows. -/
def Quotable (text : String) : Prop :=
  ∀ rest, readLiteral? ('\'' :: (text.toList ++ '\'' :: rest)) =
    some (unitsOfText text.toList, rest)

theorem quotable_iff {text : String} (hBackslash : '\\' ∉ text.toList) :
    Quotable text ↔ ∀ c ∈ text.toList, breaksLiteral c = false := by
  simp only [Quotable, readLiteral?_eq_some_iff hBackslash, forall_const]

end EntityGen.TypeScript
