import EntityGen.Number.Basic

/-!
The fewest decimal digits that identify a number. The reals that round to a number form an
interval; the search goes through ever finer decimal grids and takes the first grid that has a
point beside the number inside that interval.
-/

namespace EntityGen.Number

/-- A decimal, `digits * 10 ^ exponent`. -/
structure Decimal where
  digits : Nat
  exponent : Int
deriving DecidableEq, Repr

/-- Which of two equally near decimals is taken. -/
inductive Tie where
  | even
  | up
deriving DecidableEq, Repr

/-- Compares `a * 10 ^ i` with `n * 2 ^ j` exactly. -/
def compareScaled (a : Nat) (i : Int) (n : Nat) (j : Int) : Ordering :=
  compare (a * tenPower i.toNat * twoPower (-j).toNat)
    (n * twoPower j.toNat * tenPower (-i).toNat)

/-- Whether a decimal lies among the reals that round to `m * 2 ^ e`. Below a power of two the gap
to the next number is half as wide; the ends belong to the interval when `m` is even. -/
def readsBack (m : Nat) (e : Int) (d : Decimal) : Bool :=
  let narrow := m == twoPower 52 && minExponent < e
  let low := compareScaled d.digits d.exponent (if narrow then 4 * m - 1 else 4 * m - 2) (e - 2)
  let high := compareScaled d.digits d.exponent (4 * m + 2) (e - 2)
  let ends := m % 2 == 0
  (low == .gt || (ends && low == .eq)) && (high == .lt || (ends && high == .eq))

/-- The least `k` with `m * 2 ^ e < 10 ^ k`, for positive `m`. -/
def decimalScale (m : Nat) (e : Int) : Int :=
  let guess := (((m.log2 : Int) + e) * 30103).fdiv 100000
  if compareScaled 1 guess m e == .gt then guess
  else if compareScaled 1 (guess + 1) m e == .gt then guess + 1
  else guess + 2

/-- The decimal on the grid `10 ^ exponent` that reads back, the nearer one if both neighbours of
the number do. -/
def onGrid? (tie : Tie) (m : Nat) (e exponent : Int) : Option Decimal :=
  let floor := m * twoPower e.toNat * tenPower (-exponent).toNat /
    (twoPower (-e).toNat * tenPower exponent.toNat)
  let below : Decimal := ⟨floor, exponent⟩
  let above : Decimal := ⟨floor + 1, exponent⟩
  match readsBack m e below, readsBack m e above with
  | true, true =>
    match compareScaled (2 * floor + 1) exponent (2 * m) e with
    | .gt => some below
    | .lt => some above
    | .eq => match tie with
      | .up => some above
      | .even => some (if floor % 2 == 0 then below else above)
  | true, false => some below
  | false, true => some above
  | false, false => none

/-- The exact decimal value of `m * 2 ^ e`. -/
def exactDecimal (m : Nat) (e : Int) : Decimal :=
  if 0 ≤ e then ⟨m * twoPower e.toNat, 0⟩ else ⟨m * fivePower (-e).toNat, e⟩

/-- Moves the trailing zeros of `digits` into the exponent. -/
def Decimal.strip (d : Decimal) : Decimal :=
  if d.digits == 0 then ⟨0, 0⟩
  else if h : d.digits % 10 = 0 ∧ d.digits ≠ 0 then Decimal.strip ⟨d.digits / 10, d.exponent + 1⟩
  else d
termination_by d.digits
decreasing_by exact Nat.div_lt_self (Nat.pos_of_ne_zero h.2) (by decide)

/-- The shortest decimal that identifies `m * 2 ^ e`, for positive `m`. Seventeen digits suffice. -/
def shortest (tie : Tie) (m : Nat) (e : Int) : Decimal :=
  let scale := decimalScale m e
  let found := (List.range 17).findSome? fun n => onGrid? tie m e (scale - (n + 1 : Nat))
  (found.getD (exactDecimal m e)).strip

end EntityGen.Number
