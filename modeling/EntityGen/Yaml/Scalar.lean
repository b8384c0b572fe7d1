import EntityGen.Number.Reader
import EntityGen.Yaml.Value

/-!
The types of plain scalars: null, booleans, integers in four bases, floats, and texts for all else.
-/

namespace EntityGen.Yaml

def isNullName (s : String) : Bool := s == "null" || s == "Null" || s == "NULL" || s == "~"

def bool? (s : String) : Option Bool :=
  if s == "true" || s == "True" || s == "TRUE" then some true
  else if s == "false" || s == "False" || s == "FALSE" then some false
  else none

/-- The digit of a character in a base of at most sixteen. -/
def digitIn? (base : Nat) (c : Char) : Option Nat :=
  let value? :=
    if c.isDigit then some (c.toNat - '0'.toNat)
    else if c.isAlpha then some (c.toLower.toNat - 'a'.toNat + 10)
    else none
  value?.filter (· < base)

/-- The natural that digits of a base denote; there must be one. -/
def natural? (base : Nat) (digits : List Char) : Option Nat :=
  if digits.isEmpty then none
  else digits.foldlM (fun value c => (digitIn? base c).map (base * value + ·)) 0

def hasLeadingZero (s : List Char) : Bool :=
  let digits := match s with
    | '-' :: rest | '+' :: rest => rest
    | rest => rest
  1 < digits.length && digits.head? == some '0' && digits.all Char.isDigit

/-- The magnitude of an integer: in a base that a prefix names, or decimal. -/
def magnitude? (digits : List Char) : Option Nat :=
  match digits with
  | '0' :: 'x' :: rest => natural? 16 rest
  | '0' :: 'o' :: rest => natural? 8 rest
  | '0' :: 'b' :: rest => natural? 2 rest
  | digits => if hasLeadingZero digits then none else natural? 10 digits

/-- The integer that a plain scalar denotes, of any size. -/
def integer? (s : List Char) : Option Int :=
  match s with
  | '+' :: digits => (magnitude? digits).map Int.ofNat
  | '-' :: digits => (magnitude? digits).map fun n => -(n : Int)
  | digits => (magnitude? digits).map Int.ofNat

/-- Integers that a document may hold: 64 bits, with or without a sign. -/
def fitsWord (i : Int) : Bool := -(twoPower 63 : Int) ≤ i && i < twoPower 64

/-- Integers of 128 bits, which are neither kept nor read as floats. -/
def fitsDoubleWord (i : Int) : Bool := -(twoPower 127 : Int) ≤ i && i < twoPower 128

/-- The float that a scalar denotes. Special values have names that begin with a point. -/
def float? (s : List Char) : Option Number :=
  let text := String.ofList s
  let unsigned? : Option (List Char) := match s with
    | '+' :: rest =>
      if rest.head? == some '+' || rest.head? == some '-' then none else some rest
    | s => some s
  unsigned?.bind fun unsigned =>
    let name := String.ofList unsigned
    if name == ".inf" || name == ".Inf" || name == ".INF" then some (.infinite false)
    else if text == "-.inf" || text == "-.Inf" || text == "-.INF" then some (.infinite true)
    else if text == ".nan" || text == ".NaN" || text == ".NAN" then some .nan
    else (Number.read? unsigned).filter Number.isFinite

/-- The value of a plain scalar; `none` for an integer that is too large to be kept. -/
def plainValue? (s : String) : Option Value :=
  if s.isEmpty || isNullName s then some .null
  else match bool? s with
    | some b => some (.bool b)
    | none =>
      let text := s.toList
      match (integer? text).filter fitsDoubleWord with
      | some i => if fitsWord i then some (.int i) else none
      | none =>
        if hasLeadingZero text then some (.str s)
        else match float? text with
          | some x => some (.float x)
          | none => some (.str s)

end EntityGen.Yaml
