import EntityGen.Number.Basic

/-!
Reading numbers from decimal text: an optional sign, then digits with at most one point among or
beside them and an optional exponent, or one of the names of the special values.
-/

namespace EntityGen.Number

def digitValue (c : Char) : Nat := c.toNat - '0'.toNat

/-- The value of a text of decimal digits. -/
def digitsValue (digits : List Char) : Nat :=
  digits.foldl (fun value c => 10 * value + digitValue c) 0

/-- The number nearest to `digits * 10 ^ exponent`. The two bounds only spare the large powers: past
them the nearest number is infinite or zero. -/
def ofDecimal (negative : Bool) (digits : List Char) (exponent : Int) : Number :=
  let digits := digits.dropWhile (· == '0')
  let value := digitsValue digits
  let leading := (digits.length : Int) + exponent
  if value == 0 then zero negative
  else if 310 < leading then .infinite negative
  else if leading < -330 then zero negative
  else if 0 ≤ exponent then ofRatio negative (value * tenPower exponent.toNat) 1
  else ofRatio negative value (tenPower (-exponent).toNat)

/-- The exponent part of a decimal text: nothing, or a mark, an optional sign and digits. -/
def readExponent? : List Char → Option Int
  | [] => some 0
  | mark :: rest =>
    if mark == 'e' || mark == 'E' then
      let (negative, digits) := match rest with
        | '-' :: digits => (true, digits)
        | '+' :: digits => (false, digits)
        | digits => (false, digits)
      if digits.isEmpty || !digits.all Char.isDigit then none
      else
        let value : Int := digitsValue digits
        some (if negative then -value else value)
    else none

/-- A decimal text without a sign. -/
def readMagnitude? (negative : Bool) (text : List Char) : Option Number :=
  let whole := text.takeWhile Char.isDigit
  let (fraction, rest) := match text.dropWhile Char.isDigit with
    | '.' :: rest => (rest.takeWhile Char.isDigit, rest.dropWhile Char.isDigit)
    | rest => ([], rest)
  if whole.isEmpty && fraction.isEmpty then none
  else (readExponent? rest).map fun exponent =>
    ofDecimal negative (whole ++ fraction) (exponent - (fraction.length : Int))

/-- The special values, whose names are read in any case. -/
def readSpecial? (negative : Bool) (text : List Char) : Option Number :=
  let name := String.ofList (text.map Char.toLower)
  if name == "inf" || name == "infinity" then some (.infinite negative)
  else if name == "nan" then some .nan
  else none

def read? (text : List Char) : Option Number :=
  let (negative, magnitude) := match text with
    | '-' :: rest => (true, rest)
    | '+' :: rest => (false, rest)
    | rest => (false, rest)
  (readSpecial? negative magnitude).or (readMagnitude? negative magnitude)

end EntityGen.Number
