import EntityGen.Number.Digits

/-!
The two ways in which numbers are written. The plain way is positional throughout; the document way
always shows a point or an exponent, so that an integral value is not read back as an integer.
-/

namespace EntityGen.Number

def natDigits (n : Nat) : List Char := Nat.toDigits 10 n

def zeros (n : Nat) : List Char := List.replicate n '0'

/-- A decimal without an exponent; an integral one has no point. -/
def Decimal.plain (d : Decimal) : List Char :=
  let digits := natDigits d.digits
  let point : Int := (digits.length : Int) + d.exponent
  if 0 ≤ d.exponent then digits ++ zeros d.exponent.toNat
  else if 0 < point then digits.take point.toNat ++ '.' :: digits.drop point.toNat
  else '0' :: '.' :: zeros (-point).toNat ++ digits

/-- A decimal as documents hold it: positional if the point falls at most sixteen places after or
four places before the first digit, else with an exponent. -/
def Decimal.scientific (d : Decimal) : List Char :=
  let digits := natDigits d.digits
  let point : Int := (digits.length : Int) + d.exponent
  if 0 ≤ d.exponent && point ≤ 16 then digits ++ zeros d.exponent.toNat ++ ['.', '0']
  else if -5 < point && point ≤ 16 then d.plain
  else
    let power := point - 1
    let exponent := (if power < 0 then ['-'] else []) ++ natDigits power.natAbs
    match digits with
    | [] => []
    | [digit] => digit :: 'e' :: exponent
    | digit :: more => digit :: '.' :: more ++ 'e' :: exponent

def signed (negative : Bool) (magnitude : List Char) : String :=
  String.ofList (if negative then '-' :: magnitude else magnitude)

/-- The plain text of a number: the fewest digits that identify it, without an exponent. -/
def plainText : Number → String
  | .nan => "NaN"
  | .infinite negative => signed negative ['i', 'n', 'f']
  | .finite negative 0 _ => signed negative ['0']
  | .finite negative m e => signed negative (shortest .up m e).plain

def documentText : Number → String
  | .nan => ".nan"
  | .infinite negative => signed negative ['.', 'i', 'n', 'f']
  | .finite negative 0 _ => signed negative ['0', '.', '0']
  | .finite negative m e => signed negative (shortest .even m e).scientific

def intText (i : Int) : String := signed (i < 0) (natDigits i.natAbs)

/-- The text of a number in generated code: an integral value below `10 ^ 15` is written as an
integer, and so loses the sign of zero. -/
def sourceText (x : Number) : String :=
  match x.toInt? with
  | some i => if i.natAbs < tenPower 15 then intText i else x.plainText
  | none => x.plainText

end EntityGen.Number
