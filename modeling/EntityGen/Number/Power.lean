/-!
Powers of the bases in which numbers are kept and written. They are naturals, and a scale with a
negative exponent is kept as a divisor.
-/

namespace EntityGen

def twoPower (n : Nat) : Nat := Nat.pow 2 n

def fivePower (n : Nat) : Nat := Nat.pow 5 n

def tenPower (n : Nat) : Nat := Nat.pow 10 n

theorem twoPower_pos (n : Nat) : 0 < twoPower n := Nat.pow_pos (by decide)

theorem tenPower_pos (n : Nat) : 0 < tenPower n := Nat.pow_pos (by decide)

end EntityGen
