import EntityGen.Json.Basic
import EntityGen.Number.Reader

/-!
Numbers in JSON texts. Integers of 64 bits are kept, and all other numbers are floats: the first
digits, as far as they fit 64 bits, times a power of ten. Each of the two and their product or
quotient are rounded.
-/

namespace EntityGen.Json

/-- The greatest value that the first digits of a number may have. -/
def maxSignificand : Nat := twoPower 64 - 1

/-- The greatest exponent of a power of ten in one step. -/
def maxPower : Nat := 308

def nearestTenPower (n : Nat) : Number := Number.ofRatio false (tenPower n) 1

/-- The float nearest to the product of the magnitudes of two floats. -/
def product (negative : Bool) : Number → Number → Number
  | .finite _ m e, .finite _ n f =>
    Number.ofRatio negative (m * n * twoPower (e + f).toNat) (twoPower (-(e + f)).toNat)
  | _, _ => .nan

/-- The float nearest to the quotient of the magnitudes of two floats. -/
def quotient (negative : Bool) : Number → Number → Number
  | .finite _ m e, .finite _ n f =>
    Number.ofRatio negative (m * twoPower (e - f).toNat) (n * twoPower (f - e).toNat)
  | _, _ => .nan

def isZero : Number → Bool
  | .finite _ 0 _ => true
  | _ => false

/-- A float divided by a power of ten, in steps. -/
def scaleDown (negative : Bool) : Nat → Number → Nat → Number
  | 0, x, power => quotient negative x (nearestTenPower power)
  | steps + 1, x, power =>
    if power ≤ maxPower then quotient negative x (nearestTenPower power)
    else if isZero x then Number.zero negative
    else scaleDown negative steps (quotient negative x (nearestTenPower maxPower)) (power - maxPower)

/-- A significand times a power of ten; `none` if that is not finite. -/
def float? (negative : Bool) (significand : Nat) (exponent : Int) : Option Number :=
  let x := Number.ofInt significand
  if isZero x then some (Number.zero negative)
  else if exponent < 0 then some (scaleDown negative 4 x exponent.natAbs)
  else if maxPower < exponent.natAbs then none
  else (some (product negative x (nearestTenPower exponent.natAbs))).filter Number.isFinite

/-- The value of the first digits as far as it stays in bounds, and how many digits are left. -/
def significand (start : Nat) : List Char → Nat × List Char
  | [] => (start, [])
  | c :: rest =>
    let next := 10 * start + EntityGen.Number.digitValue c
    if next ≤ maxSignificand then significand next rest else (start, c :: rest)

/-- The parts of a number as it is written. -/
structure Numeral where
  negative : Bool
  whole : List Char
  fraction : Option (List Char)
  exponent : Option Int

namespace Numeral

/-- The value of a numeral; `none` if it is a float beyond the greatest one. -/
def value? (numeral : Numeral) : Option Json :=
  let (first, more) := significand 0 numeral.whole
  match numeral.fraction, numeral.exponent, more with
  | none, none, [] =>
    if !numeral.negative then some (.int first)
    else if first == 0 || twoPower 63 < first then (float? true first 0).map .float
    else some (.int (-first))
  | fraction, exponent, more =>
    let digits := fraction.getD []
    let (all, left) := significand first digits
    let power : Int := (more.length : Int) - ((digits.length - left.length : Nat) : Int)
    (float? numeral.negative all (power + exponent.getD 0)).map .float

end Numeral

def digits? (text : List Char) : Option (List Char × List Char) :=
  let digits := text.takeWhile Char.isDigit
  if digits.isEmpty then none else some (digits, text.dropWhile Char.isDigit)

def fraction? : List Char → Option (Option (List Char) × List Char)
  | '.' :: rest => (digits? rest).map fun (digits, rest) => (some digits, rest)
  | rest => some (none, rest)

def exponent? : List Char → Option (Option Int × List Char)
  | c :: rest =>
    if c == 'e' || c == 'E' then
      let (negative, rest) := match rest with
        | '-' :: rest => (true, rest)
        | '+' :: rest => (false, rest)
        | rest => (false, rest)
      (digits? rest).map fun (digits, rest) =>
        let magnitude : Int := EntityGen.Number.digitsValue digits
        (some (if negative then -magnitude else magnitude), rest)
    else some (none, c :: rest)
  | [] => some (none, [])

def numeral? (text : List Char) : Option (Numeral × List Char) := do
  let (negative, text) := match text with
    | '-' :: rest => (true, rest)
    | rest => (false, rest)
  let (whole, text) ← digits? text
  if whole.head? == some '0' && 1 < whole.length then none
  let (fraction, text) ← fraction? text
  let (exponent, text) ← exponent? text
  return (⟨negative, whole, fraction, exponent⟩, text)

end EntityGen.Json
