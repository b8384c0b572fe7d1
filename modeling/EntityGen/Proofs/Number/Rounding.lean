import EntityGen.Number.Basic
import Mathlib.Data.Int.Log
import Mathlib.Data.Rat.Floor
import Mathlib.Tactic.FieldSimp
import Mathlib.Tactic.Linarith
import Mathlib.Tactic.NormNum
import Mathlib.Tactic.Positivity
import Mathlib.Tactic.Ring

/-! Rounding a quotient to a number. Around each number lies the interval of the reals that round to
it: a quotient in there gives that number. Whatever the quotient, the number has its one form. -/

namespace EntityGen.Number

variable {num den m : Nat} {e : Int} {v : ℚ}

theorem twoPower_cast (n : Nat) : (twoPower n : ℚ) = 2 ^ n := Nat.cast_pow 2 n

theorem tenPower_cast (n : Nat) : (tenPower n : ℚ) = 10 ^ n := Nat.cast_pow 10 n

/-- A power with an exponent of either sign is a quotient of two powers. -/
theorem zpow_mul_pow_toNat {base : ℚ} (h : base ≠ 0) (i : Int) :
    base ^ i * base ^ (-i).toNat = base ^ i.toNat := by
  rw [← zpow_natCast, ← zpow_natCast, ← zpow_add₀ h]
  congr 1
  omega

theorem zpow_eq_pow_toNat {base : ℚ} {i : Int} (h : 0 ≤ i) : base ^ i = base ^ i.toNat := by
  rw [← zpow_natCast, Int.toNat_of_nonneg h]

theorem zpow_mul_pow_neg {base : ℚ} (hBase : base ≠ 0) {i : Int} (h : i ≤ 0) :
    base ^ i * base ^ (-i).toNat = 1 := by
  rw [zpow_mul_pow_toNat hBase, Int.toNat_of_nonpos h, pow_zero]

/-! ### Quotients -/

/-- A quotient that is at most a half away from a natural is rounded to it, if it is an even one or
nearer than a half. -/
theorem roundQuotient_eq (hDen : 0 < den) {n : Nat} (hLow : 2 * (n * den) ≤ 2 * num + den)
    (hHigh : 2 * num ≤ 2 * (n * den) + den)
    (hOdd : n % 2 = 1 → 2 * (n * den) < 2 * num + den ∧ 2 * num < 2 * (n * den) + den) :
    roundQuotient num den = n := by
  have hParts : num / den * den + num % den = num := Nat.div_add_mod' num den
  have hRest : num % den < den := Nat.mod_lt num hDen
  rw [roundQuotient]
  generalize num / den = floor at *
  generalize num % den = rest at *
  have hNear : n = floor ∨ n = floor + 1 := by
    by_contra hFar
    rcases (by omega : n + 1 ≤ floor ∨ floor + 2 ≤ n) with hLess | hMore
    · have hProduct := Nat.mul_le_mul_right den hLess
      rw [Nat.add_mul] at hProduct
      omega
    · have hProduct := Nat.mul_le_mul_right den hMore
      rw [Nat.add_mul] at hProduct
      omega
  simp only [beq_iff_eq]
  rcases hNear with rfl | rfl
  · rcases hCompare : compare (2 * rest) den with _ | _ | _
    · rfl
    · have hHalf : 2 * rest = den := Nat.compare_eq_eq.mp hCompare
      have hEven : n % 2 = 0 := by omega
      simp only [hEven, if_true]
    · have hMore : den < 2 * rest := Nat.compare_eq_gt.mp hCompare
      omega
  · rw [Nat.add_mul] at hLow hHigh hOdd
    rcases hCompare : compare (2 * rest) den with _ | _ | _
    · have hLess : 2 * rest < den := Nat.compare_eq_lt.mp hCompare
      omega
    · have hHalf : 2 * rest = den := Nat.compare_eq_eq.mp hCompare
      have hOdd : floor % 2 ≠ 0 := by omega
      simp only [hOdd, if_false]
    · rfl

theorem le_roundQuotient (hDen : 0 < den) {n : Nat} (h : n * den ≤ num) :
    n ≤ roundQuotient num den := by
  have hFloor : n ≤ num / den := (Nat.le_div_iff_mul_le hDen).mpr h
  rw [roundQuotient]
  split
  · exact hFloor
  · omega
  · split <;> omega

theorem roundQuotient_le (hDen : 0 < den) {n : Nat} (h : num < n * den) :
    roundQuotient num den ≤ n := by
  have hFloor : num / den < n := (Nat.div_lt_iff_lt_mul hDen).mpr h
  rw [roundQuotient]
  split
  · omega
  · omega
  · split <;> omega

/-! ### The leading bit -/

theorem log_two_bounds {n : Nat} (h : 0 < n) :
    (2 : ℚ) ^ (n.log2 : Int) ≤ n ∧ (n : ℚ) < 2 ^ ((n.log2 : Int) + 1) := by
  have hLow : 2 ^ n.log2 ≤ n := Nat.log2_self_le (Nat.ne_of_gt h)
  have hHigh : n < 2 ^ (n.log2 + 1) := Nat.lt_log2_self
  constructor
  · rw [zpow_natCast]
    exact_mod_cast hLow
  · have hExponent : ((n.log2 : Int) + 1) = ((n.log2 + 1 : Nat) : Int) := by push_cast; ring
    rw [hExponent, zpow_natCast]
    exact_mod_cast hHigh

theorem two_zpow_pos (i : Int) : (0 : ℚ) < 2 ^ i := zpow_pos (by norm_num) i

/-- Scaling the parts of a quotient by a power of two scales the quotient. -/
theorem scaled_eq (hDen : 0 < den) (i : Int) :
    ((num * twoPower (-i).toNat : Nat) : ℚ) =
      (num : ℚ) / den / 2 ^ i * ((den * twoPower i.toNat : Nat) : ℚ) := by
  have hCast : (den : ℚ) ≠ 0 := by exact_mod_cast Nat.ne_of_gt hDen
  have hPower := zpow_mul_pow_toNat (by norm_num : (2 : ℚ) ≠ 0) i
  have hZpow : (2 : ℚ) ^ i ≠ 0 := ne_of_gt (two_zpow_pos i)
  push_cast
  rw [twoPower_cast, twoPower_cast, ← hPower]
  field_simp

theorem scaled_pos (hDen : 0 < den) (i : Int) : 0 < den * twoPower i.toNat :=
  Nat.mul_pos hDen (twoPower_pos _)

theorem twoPower_mul_zpow (n : Nat) (i : Int) : (twoPower n : ℚ) * 2 ^ i = 2 ^ (n + i) := by
  rw [twoPower_cast, ← zpow_natCast, ← zpow_add₀ (by norm_num)]

/-- A scaled quotient is at least a power of two if the quotient is at least a greater one. -/
theorem twoPower_le_scaled_iff (hDen : 0 < den) (n : Nat) (i : Int) :
    twoPower n * (den * twoPower i.toNat) ≤ num * twoPower (-i).toNat ↔
      (2 : ℚ) ^ (n + i) ≤ num / den := by
  have hPos : (0 : ℚ) < ((den * twoPower i.toNat : Nat) : ℚ) := by
    exact_mod_cast scaled_pos hDen i
  rw [← Nat.cast_le (α := ℚ), scaled_eq hDen i, Nat.cast_mul, mul_le_mul_iff_of_pos_right hPos,
    le_div_iff₀ (two_zpow_pos i), twoPower_mul_zpow]

theorem power_le_iff (hDen : 0 < den) (i : Int) :
    den * twoPower i.toNat ≤ num * twoPower (-i).toNat ↔ (2 : ℚ) ^ i ≤ num / den := by
  have hOne : twoPower 0 = 1 := rfl
  have hScaled := @twoPower_le_scaled_iff num den hDen 0 i
  rwa [hOne, Nat.one_mul, Nat.cast_zero, zero_add] at hScaled

/-- The lengths of the parts of a quotient give its leading bit, or the one below. -/
theorem quotient_bounds (hNum : 0 < num) (hDen : 0 < den) :
    (2 : ℚ) ^ ((num.log2 : Int) - den.log2 - 1) ≤ num / den ∧
      (num : ℚ) / den < 2 ^ ((num.log2 : Int) - den.log2 + 1) := by
  have hDenCast : (0 : ℚ) < den := by exact_mod_cast hDen
  obtain ⟨hNumLow, hNumHigh⟩ := log_two_bounds hNum
  obtain ⟨hDenLow, hDenHigh⟩ := log_two_bounds hDen
  constructor
  · rw [le_div_iff₀ hDenCast]
    calc (2 : ℚ) ^ ((num.log2 : Int) - den.log2 - 1) * den
        ≤ 2 ^ ((num.log2 : Int) - den.log2 - 1) * 2 ^ ((den.log2 : Int) + 1) :=
        mul_le_mul_of_nonneg_left hDenHigh.le (two_zpow_pos _).le
      _ = 2 ^ (num.log2 : Int) := by
        rw [← zpow_add₀ (by norm_num)]
        congr 1
        ring
      _ ≤ num := hNumLow
  · rw [div_lt_iff₀ hDenCast]
    calc (num : ℚ) < 2 ^ ((num.log2 : Int) + 1) := hNumHigh
      _ = 2 ^ ((num.log2 : Int) - den.log2 + 1) * 2 ^ (den.log2 : Int) := by
        rw [← zpow_add₀ (by norm_num)]
        congr 1
        ring
      _ ≤ 2 ^ ((num.log2 : Int) - den.log2 + 1) * den :=
        mul_le_mul_of_nonneg_left hDenLow (two_zpow_pos _).le

theorem leadingBit_eq (hNum : 0 < num) (hDen : 0 < den) :
    leadingBit num den = Int.log 2 ((num : ℚ) / den) := by
  have hQuotient : (0 : ℚ) < num / den :=
    div_pos (by exact_mod_cast hNum) (by exact_mod_cast hDen)
  obtain ⟨hBelow, hAbove⟩ := quotient_bounds hNum hDen
  have hLow {i : Int} : i ≤ Int.log 2 ((num : ℚ) / den) ↔ (2 : ℚ) ^ i ≤ num / den :=
    (Int.zpow_le_iff_le_log (by decide) hQuotient).symm
  have hHigh {i : Int} : Int.log 2 ((num : ℚ) / den) < i ↔ (num : ℚ) / den < 2 ^ i :=
    (Int.lt_zpow_iff_log_lt (by decide) hQuotient).symm
  rw [leadingBit]
  split
  · rename_i hGuess
    have hLeast := hLow.mpr ((power_le_iff hDen _).mp hGuess)
    have hMost := hHigh.mpr hAbove
    omega
  · rename_i hGuess
    rw [power_le_iff hDen, ← hLow] at hGuess
    have hLeast := hLow.mpr hBelow
    omega

theorem le_leadingBit_iff (hNum : 0 < num) (hDen : 0 < den) {i : Int} :
    i ≤ leadingBit num den ↔ (2 : ℚ) ^ i ≤ num / den := by
  rw [leadingBit_eq hNum hDen]
  exact (Int.zpow_le_iff_le_log (by decide) (by positivity)).symm

theorem leadingBit_lt_iff (hNum : 0 < num) (hDen : 0 < den) {i : Int} :
    leadingBit num den < i ↔ (num : ℚ) / den < 2 ^ i := by
  rw [← not_le, le_leadingBit_iff hNum hDen, not_le]

/-! ### The interval of a number -/

/-- Whether the gap to the next number below is half as wide as that above. -/
def isNarrow (m : Nat) (e : Int) : Bool := m == twoPower 52 && minExponent < e

/-- The end of the interval below a number, in quarters of the gap above it. -/
def lowQuarters (m : Nat) (e : Int) : Nat := if isNarrow m e then 4 * m - 1 else 4 * m - 2

def highQuarters (m : Nat) : Nat := 4 * m + 2

/-- A real rounds to `m * 2 ^ e`: it is not beyond the middle between that and the next number below
or above. The middles belong to the interval if the mantissa is even. -/
structure RoundsTo (m : Nat) (e : Int) (v : ℚ) : Prop where
  low : lowQuarters m e * (2 : ℚ) ^ (e - 2) ≤ v
  high : v ≤ highQuarters m * (2 : ℚ) ^ (e - 2)
  odd : m % 2 = 1 →
    lowQuarters m e * (2 : ℚ) ^ (e - 2) < v ∧ v < highQuarters m * (2 : ℚ) ^ (e - 2)

theorem four_quarters (e : Int) : (2 : ℚ) ^ e = 4 * 2 ^ (e - 2) := by
  have hFour : (4 : ℚ) = 2 ^ (2 : Int) := by norm_num
  rw [hFour, ← zpow_add₀ (by norm_num)]
  congr 1
  ring

theorem lowQuarters_lt (h : 0 < m) : lowQuarters m e < 4 * m := by
  rw [lowQuarters]
  split <;> omega

theorem highQuarters_lt (h : m < twoPower 53) : highQuarters m < twoPower 55 := by
  have hPowers : twoPower 55 = 4 * twoPower 53 := rfl
  rw [highQuarters]
  omega

/-- A number rounds to itself. -/
theorem RoundsTo.self (h : 0 < m) : RoundsTo m e (m * 2 ^ e) := by
  have hPos := two_zpow_pos (e - 2)
  have hLow : (lowQuarters m e : ℚ) < 4 * m := by exact_mod_cast lowQuarters_lt h
  have hHigh : (4 * m : ℚ) < highQuarters m := by
    rw [highQuarters]
    push_cast
    linarith
  have hValue : (m : ℚ) * 2 ^ e = 4 * m * 2 ^ (e - 2) := by
    rw [four_quarters]
    ring
  rw [← mul_lt_mul_iff_of_pos_right hPos] at hLow hHigh
  rw [← hValue] at hLow hHigh
  exact ⟨hLow.le, hHigh.le, fun _ => ⟨hLow, hHigh⟩⟩

/-- Rounding, by the exponent and by the mantissa before it is put in its one form. -/
theorem ofRatio_eq (negative : Bool) (hNum : 0 < num) {i : Int} {n : Nat}
    (hExponent : max (leadingBit num den - 52) minExponent = i)
    (hMantissa : roundQuotient (num * twoPower (-i).toNat) (den * twoPower i.toNat) = n) :
    ofRatio negative num den =
      if n = twoPower 53 then
        if maxExponent < i + 1 then .infinite negative else .finite negative (twoPower 52) (i + 1)
      else if maxExponent < i then .infinite negative
      else .finite negative n i := by
  have hSome : ¬(num == 0) = true := by simpa using Nat.ne_of_gt hNum
  rw [ofRatio, if_neg hSome]
  simp only [hExponent, hMantissa, beq_iff_eq]
  by_cases hFull : n = twoPower 53
  · rw [if_pos hFull, if_pos hFull]
  · rw [if_neg hFull, if_neg hFull]

section Quarters

variable (hDen : 0 < den) (i : Int) (q : Nat)
include hDen

/-- The distance of a quotient to some quarters of a power of two, with the scaled parts. -/
theorem quarters_eq : (num : ℚ) / den * ((den * twoPower i.toNat : Nat) : ℚ) =
    ((4 * (num * twoPower (-i).toNat) : Nat) : ℚ) * 2 ^ (i - 2) := by
  have hZpow : (2 : ℚ) ^ (i - 2) ≠ 0 := ne_of_gt (two_zpow_pos _)
  rw [Nat.cast_mul 4, scaled_eq hDen i, four_quarters]
  field_simp
  norm_num

theorem quarters_le_iff : q * (2 : ℚ) ^ (i - 2) ≤ num / den ↔
    q * (den * twoPower i.toNat) ≤ 4 * (num * twoPower (-i).toNat) := by
  have hPos : (0 : ℚ) < ((den * twoPower i.toNat : Nat) : ℚ) := by
    exact_mod_cast scaled_pos hDen i
  rw [← mul_le_mul_iff_of_pos_right hPos, quarters_eq hDen, mul_right_comm,
    mul_le_mul_iff_of_pos_right (two_zpow_pos _)]
  exact_mod_cast Iff.rfl

theorem le_quarters_iff : (num : ℚ) / den ≤ q * 2 ^ (i - 2) ↔
    4 * (num * twoPower (-i).toNat) ≤ q * (den * twoPower i.toNat) := by
  have hPos : (0 : ℚ) < ((den * twoPower i.toNat : Nat) : ℚ) := by
    exact_mod_cast scaled_pos hDen i
  rw [← mul_le_mul_iff_of_pos_right hPos, quarters_eq hDen, mul_right_comm,
    mul_le_mul_iff_of_pos_right (two_zpow_pos _)]
  exact_mod_cast Iff.rfl

/-- The mantissa with some exponent, by bounds in quarters. -/
theorem roundQuotient_scaled {n low high : Nat} (hLow : low * (2 : ℚ) ^ (i - 2) ≤ num / den)
    (hHigh : (num : ℚ) / den ≤ high * 2 ^ (i - 2)) (hAbove : 4 * n ≤ low + 2)
    (hBelow : high ≤ 4 * n + 2)
    (hOdd : n % 2 = 1 → low * (2 : ℚ) ^ (i - 2) < num / den ∧
      (num : ℚ) / den < high * 2 ^ (i - 2)) :
    roundQuotient (num * twoPower (-i).toNat) (den * twoPower i.toNat) = n := by
  have hPos : 0 < den * twoPower i.toNat := scaled_pos hDen i
  simp only [← not_le, quarters_le_iff hDen, le_quarters_iff hDen] at hLow hHigh hOdd
  generalize num * twoPower (-i).toNat = top at *
  generalize den * twoPower i.toNat = bottom at *
  have hLeast := Nat.mul_le_mul_right bottom hAbove
  have hMost := Nat.mul_le_mul_right bottom hBelow
  rw [Nat.add_mul, Nat.mul_assoc] at hLeast hMost
  refine roundQuotient_eq hPos (by omega) (by omega) fun hParity => ?_
  obtain ⟨hLess, hMore⟩ := hOdd hParity
  omega

end Quarters

/-- A number that has been reached from below a power of two has the least mantissa. -/
theorem eq_of_lowQuarters_lt (hForm : twoPower 52 ≤ m) (hLeast : minExponent < e)
    (h : lowQuarters m e < twoPower 54) : m = twoPower 52 ∧ lowQuarters m e = twoPower 54 - 1 := by
  have hPowers : twoPower 54 = 4 * twoPower 52 := rfl
  rw [lowQuarters] at h ⊢
  by_cases hNarrow : isNarrow m e
  · obtain rfl : m = twoPower 52 := by
      rw [isNarrow, Bool.and_eq_true, beq_iff_eq] at hNarrow
      exact hNarrow.1
    exact ⟨rfl, by rw [if_pos hNarrow, hPowers]⟩
  · rw [if_neg hNarrow] at h
    rw [isNarrow, Bool.and_eq_true, beq_iff_eq, decide_eq_true_eq] at hNarrow
    have hOther : m ≠ twoPower 52 := fun hSame => hNarrow ⟨hSame, hLeast⟩
    omega

/-- A quotient in the last quarter below a power of two is rounded up to it: with the exponent that
it has there, it fills the mantissa. -/
theorem ofRatio_below_power (negative : Bool) (hNum : 0 < num) (hDen : 0 < den)
    (hLeast : minExponent < e) (hMost : e ≤ maxExponent)
    (hLow : ((twoPower 54 - 1 : Nat) : ℚ) * 2 ^ (e - 2) ≤ num / den)
    (hHigh : (num : ℚ) / den < twoPower 54 * 2 ^ (e - 2)) :
    ofRatio negative num den = .finite negative (twoPower 52) e := by
  have hPower (n : Nat) : (twoPower n : ℚ) * 2 ^ (e - 2) = 2 ^ (n + (e - 2)) :=
    twoPower_mul_zpow n (e - 2)
  have hUnder : leadingBit num den < (54 : Nat) + (e - 2) := by
    rw [leadingBit_lt_iff hNum hDen, ← hPower 54]
    exact hHigh
  have hReached : (53 : Nat) + (e - 2) ≤ leadingBit num den := by
    refine (le_leadingBit_iff hNum hDen).mpr (le_trans ?_ hLow)
    rw [← hPower 53]
    exact mul_le_mul_of_nonneg_right (by exact_mod_cast (by decide)) (two_zpow_pos _).le
  have hExponent : max (leadingBit num den - 52) minExponent = e - 1 := by omega
  have hHalf : (2 : ℚ) ^ (e - 2) = 2 * 2 ^ (e - 1 - 2) := by
    rw [← zpow_one_add₀ (by norm_num)]
    congr 1
    ring
  rw [hHalf] at hLow hHigh
  have hLeft : ((2 * (twoPower 54 - 1) : Nat) : ℚ) * 2 ^ (e - 1 - 2) ≤ num / den := by
    rw [Nat.cast_mul, Nat.cast_ofNat]
    linarith
  have hRight : (num : ℚ) / den ≤ (2 * twoPower 54 : Nat) * 2 ^ (e - 1 - 2) := by
    rw [Nat.cast_mul, Nat.cast_ofNat]
    linarith
  have hFull : 4 * twoPower 53 ≤ 2 * (twoPower 54 - 1) + 2 ∧
      2 * twoPower 54 ≤ 4 * twoPower 53 + 2 ∧ ¬twoPower 53 % 2 = 1 := by decide
  obtain ⟨hAbove, hMiddle, hEven⟩ := hFull
  have hRounded := roundQuotient_scaled hDen (e - 1) hLeft hRight hAbove hMiddle (absurd · hEven)
  rw [ofRatio_eq negative hNum hExponent hRounded, if_pos rfl, if_neg (by omega)]
  congr 1
  ring

/-- Every quotient in the interval of a number gives that number. -/
theorem ofRatio_of_roundsTo {negative : Bool} (hNum : 0 < num) (hDen : 0 < den)
    (hCanonical : (finite negative m e).Canonical) (h : RoundsTo m e (num / den)) :
    ofRatio negative num den = .finite negative m e := by
  obtain ⟨hLeast, hMost, hMantissa, hForm⟩ := hCanonical
  have hUnit := two_zpow_pos (e - 2)
  have hPower (n : Nat) : (twoPower n : ℚ) * 2 ^ (e - 2) = 2 ^ (n + (e - 2)) :=
    twoPower_mul_zpow n (e - 2)
  have hBelow : leadingBit num den < (55 : Nat) + (e - 2) := by
    refine (leadingBit_lt_iff hNum hDen).mpr (h.high.trans_lt ?_)
    rw [← hPower 55]
    exact mul_lt_mul_of_pos_right (by exact_mod_cast highQuarters_lt hMantissa) hUnit
  by_cases hFull : e = minExponent ∨ 54 + (e - 2) ≤ leadingBit num den
  · have hExponent : max (leadingBit num den - 52) minExponent = e := by omega
    have hAbove : 4 * m ≤ lowQuarters m e + 2 := by
      rw [lowQuarters]
      split <;> omega
    have hRounded := roundQuotient_scaled hDen e h.low h.high hAbove le_rfl h.odd
    rw [ofRatio_eq negative hNum hExponent hRounded, if_neg (by omega), if_neg (by omega)]
  · -- below a power of two the exponent is one less, until the mantissa is full
    have hNormal : twoPower 52 ≤ m := hForm.resolve_right fun hSame => hFull (.inl hSame)
    have hUnder : (num : ℚ) / den < twoPower 54 * 2 ^ (e - 2) := by
      rw [hPower 54]
      exact (leadingBit_lt_iff hNum hDen).mp (by omega)
    have hQuarters : lowQuarters m e < twoPower 54 := by
      have hCast := lt_of_mul_lt_mul_right (h.low.trans_lt hUnder) hUnit.le
      exact_mod_cast hCast
    obtain ⟨rfl, hEnd⟩ := eq_of_lowQuarters_lt hNormal (by omega) hQuarters
    have hLow := h.low
    rw [hEnd] at hLow
    exact ofRatio_below_power negative hNum hDen (by omega) hMost hLow hUnder

/-! ### The one form -/

theorem canonical_zero (negative : Bool) : (zero negative).Canonical :=
  ⟨le_rfl, by decide, by decide, .inr rfl⟩

/-- What a quotient is rounded to has the one form of its value. -/
theorem canonical_ofRatio (negative : Bool) (hDen : 0 < den) :
    (ofRatio negative num den).Canonical := by
  rcases Nat.eq_zero_or_pos num with rfl | hNum
  · exact canonical_zero negative
  generalize hExponent : max (leadingBit num den - 52) minExponent = i
  generalize hMantissa : roundQuotient (num * twoPower (-i).toNat) (den * twoPower i.toNat) = n
  have hMost : n ≤ twoPower 53 := by
    rw [← hMantissa]
    refine roundQuotient_le (scaled_pos hDen i) (lt_of_not_ge fun hMore => ?_)
    rw [twoPower_le_scaled_iff hDen, ← le_leadingBit_iff hNum hDen] at hMore
    omega
  have hForm : twoPower 52 ≤ n ∨ i = minExponent := by
    by_cases hLeast : i = minExponent
    · exact .inr hLeast
    · left
      rw [← hMantissa]
      refine le_roundQuotient (scaled_pos hDen i) ?_
      rw [twoPower_le_scaled_iff hDen, ← le_leadingBit_iff hNum hDen]
      omega
  rw [ofRatio_eq negative hNum hExponent hMantissa]
  split
  · split
    · trivial
    · exact ⟨by omega, by omega, by decide, .inl le_rfl⟩
  · split
    · trivial
    · exact ⟨by omega, by omega, by omega, hForm⟩

theorem canonical_ofInt (i : Int) : (ofInt i).Canonical := canonical_ofRatio _ (by decide)

end EntityGen.Number
