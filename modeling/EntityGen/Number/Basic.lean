import EntityGen.Number.Power

/-!
Numbers of documents: binary floating-point numbers with 53 bits of precision. A finite number is
kept as sign, mantissa and exponent, so that comparing, rounding and printing are exact arithmetic
on integers.
-/

namespace EntityGen

/-- A floating-point number. `finite negative m e` is `m * 2 ^ e` with a sign. -/
inductive Number where
  | nan
  | infinite (negative : Bool)
  | finite (negative : Bool) (mantissa : Nat) (exponent : Int)
deriving DecidableEq, Repr, Inhabited

namespace Number

def minExponent : Int := -1074

def maxExponent : Int := 971

/-- The one form in which each finite value is kept: all 53 bits used, or the least exponent. -/
def Canonical : Number → Prop
  | .finite _ m e =>
    minExponent ≤ e ∧ e ≤ maxExponent ∧ m < twoPower 53 ∧ (twoPower 52 ≤ m ∨ e = minExponent)
  | _ => True

/-- Zero, which has a sign. -/
def zero (negative : Bool) : Number := .finite negative 0 minExponent

/-- The quotient of two naturals rounded to the nearest natural, a half to the even one. -/
def roundQuotient (num den : Nat) : Nat :=
  let floor := num / den
  let rest := num % den
  match compare (2 * rest) den with
  | .lt => floor
  | .gt => floor + 1
  | .eq => if floor % 2 == 0 then floor else floor + 1

/-- The exponent of the leading bit of `num / den`, for positive `num` and `den`. -/
def leadingBit (num den : Nat) : Int :=
  let guess : Int := (num.log2 : Int) - (den.log2 : Int)
  if den * twoPower guess.toNat ≤ num * twoPower (-guess).toNat then guess else guess - 1

/-- The number nearest to `num / den`, of two equally near the one with the even mantissa; infinite
beyond the greatest finite number. -/
def ofRatio (negative : Bool) (num den : Nat) : Number :=
  if num == 0 then zero negative
  else
    let exponent := max (leadingBit num den - 52) minExponent
    let mantissa :=
      roundQuotient (num * twoPower (-exponent).toNat) (den * twoPower exponent.toNat)
    let (mantissa, exponent) :=
      if mantissa == twoPower 53 then (twoPower 52, exponent + 1) else (mantissa, exponent)
    if maxExponent < exponent then .infinite negative else .finite negative mantissa exponent

def ofInt (i : Int) : Number := ofRatio (i < 0) i.natAbs 1

def isFinite : Number → Bool
  | .finite .. => true
  | _ => false

/-- The value of a finite number that is an integer. -/
def toInt? : Number → Option Int
  | .finite negative m e =>
    let magnitude? : Option Nat :=
      if 0 ≤ e then some (m * twoPower e.toNat)
      else if m % twoPower (-e).toNat == 0 then some (m / twoPower (-e).toNat)
      else none
    magnitude?.map fun magnitude => if negative then -(magnitude : Int) else magnitude
  | _ => none

/-- Equality of values: the two zeros are equal, and so are all that are not a number. -/
def sameValue : Number → Number → Bool
  | .finite _ 0 _, .finite _ 0 _ => true
  | x, y => x == y

end Number

end EntityGen
