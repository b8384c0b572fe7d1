import EntityGen.Number.Digits
import EntityGen.Proofs.Number.Rounding

/-! The decimal that identifies a number rounds to it: only decimals that do are taken, and if there
were none with few digits, the exact value would be. -/

namespace EntityGen.Number

variable {m : Nat} {e : Int} {d : Decimal} {tie : Tie}

/-- The value of a decimal. -/
def Decimal.value (d : Decimal) : ℚ := d.digits * 10 ^ d.exponent

/-! ### Comparing -/

theorem compareScaled_eq (a : Nat) (i : Int) (n : Nat) (j : Int) :
    compareScaled a i n j = compare ((a : ℚ) * 10 ^ i) (n * 2 ^ j) := by
  have hTen := zpow_mul_pow_toNat (by norm_num : (10 : ℚ) ≠ 0) i
  have hTwo := zpow_mul_pow_toNat (by norm_num : (2 : ℚ) ≠ 0) j
  have hPos : (0 : ℚ) < 10 ^ (-i).toNat * 2 ^ (-j).toNat := by positivity
  -- both sides are scaled to naturals
  have hLeft : ((a * tenPower i.toNat * twoPower (-j).toNat : Nat) : ℚ) =
      a * 10 ^ i * (10 ^ (-i).toNat * 2 ^ (-j).toNat) := by
    push_cast
    rw [tenPower_cast, twoPower_cast, ← hTen]
    ring
  have hRight : ((n * twoPower j.toNat * tenPower (-i).toNat : Nat) : ℚ) =
      n * 2 ^ j * (10 ^ (-i).toNat * 2 ^ (-j).toNat) := by
    push_cast
    rw [tenPower_cast, twoPower_cast, ← hTwo]
    ring
  rw [compareScaled]
  generalize a * tenPower i.toNat * twoPower (-j).toNat = left at *
  generalize n * twoPower j.toNat * tenPower (-i).toNat = right at *
  rcases lt_trichotomy left right with h | h | h
  · rw [compare_lt_iff_lt.mpr h, eq_comm, compare_lt_iff_lt, ← mul_lt_mul_iff_of_pos_right hPos,
      ← hLeft, ← hRight]
    exact_mod_cast h
  · rw [compare_eq_iff_eq.mpr h, eq_comm, compare_eq_iff_eq, ← mul_left_inj' hPos.ne', ← hLeft,
      ← hRight, h]
  · rw [compare_gt_iff_gt.mpr h, eq_comm, compare_gt_iff_gt,
      ← mul_lt_mul_iff_of_pos_right hPos, ← hLeft, ← hRight]
    exact_mod_cast h

theorem roundsTo_of_readsBack (h : readsBack m e d = true) : RoundsTo m e d.value := by
  have hEnds : ((compareScaled d.digits d.exponent (lowQuarters m e) (e - 2) == .gt ||
        (m % 2 == 0 && compareScaled d.digits d.exponent (lowQuarters m e) (e - 2) == .eq)) &&
      (compareScaled d.digits d.exponent (highQuarters m) (e - 2) == .lt ||
        (m % 2 == 0 && compareScaled d.digits d.exponent (highQuarters m) (e - 2) == .eq))) =
      true := h
  simp only [compareScaled_eq, Bool.and_eq_true, Bool.or_eq_true, beq_iff_eq, compare_gt_iff_gt,
    compare_lt_iff_lt, compare_eq_iff_eq, ← Decimal.value.eq_1] at hEnds
  obtain ⟨hLow, hHigh⟩ := hEnds
  refine ⟨?_, ?_, fun hOdd => ⟨?_, ?_⟩⟩
  · exact hLow.elim (fun h => h.le) fun h => h.2.ge
  · exact hHigh.elim (fun h => h.le) fun h => h.2.le
  · exact hLow.resolve_right fun h => by omega
  · exact hHigh.resolve_right fun h => by omega

/-! ### Searching -/

theorem readsBack_of_onGrid? {exponent : Int} (h : onGrid? tie m e exponent = some d) :
    readsBack m e d = true := by
  rw [onGrid?.eq_def] at h
  simp only at h
  split at h
  · rename_i hBelow hAbove
    split at h
    · exact Option.some.inj h ▸ hBelow
    · exact Option.some.inj h ▸ hAbove
    · split at h
      · exact Option.some.inj h ▸ hAbove
      · obtain rfl := Option.some.inj h
        split
        · exact hBelow
        · exact hAbove
  · rename_i hBelow _
    exact Option.some.inj h ▸ hBelow
  · rename_i hAbove
    exact Option.some.inj h ▸ hAbove
  · cases h

theorem exactDecimal_value (m : Nat) (e : Int) : (exactDecimal m e).value = m * 2 ^ e := by
  have hTwo := zpow_mul_pow_toNat (by norm_num : (2 : ℚ) ≠ 0) e
  rw [exactDecimal]
  split
  · rename_i hNatural
    have hNone : (-e).toNat = 0 := by omega
    rw [hNone, pow_zero, mul_one] at hTwo
    rw [Decimal.value, zpow_zero, mul_one, Nat.cast_mul, twoPower_cast, hTwo]
  · have hFive : (fivePower (-e).toNat : ℚ) = 5 ^ (-e).toNat := Nat.cast_pow 5 _
    have hNone : e.toNat = 0 := by omega
    have hInverse := zpow_mul_pow_toNat (by norm_num : (5 : ℚ) ≠ 0) e
    rw [hNone, pow_zero] at hInverse
    have hTen : (10 : ℚ) ^ e = 2 ^ e * 5 ^ e := by
      rw [← mul_zpow]
      norm_num
    rw [Decimal.value, Nat.cast_mul, hFive, hTen]
    calc (m * 5 ^ (-e).toNat * (2 ^ e * 5 ^ e) : ℚ)
        = m * 2 ^ e * (5 ^ e * 5 ^ (-e).toNat) := by ring
      _ = m * 2 ^ e := by rw [hInverse, mul_one]

theorem Decimal.value_strip (d : Decimal) : d.strip.value = d.value := by
  induction d using Decimal.strip.induct with
  | case1 d hNone =>
    have hDigits : d.digits = 0 := eq_of_beq hNone
    rw [Decimal.strip, if_pos hNone, Decimal.value, Decimal.value, hDigits]
    simp
  | case2 d hSome hZero ih =>
    obtain ⟨digits, exponent⟩ := d
    rw [Decimal.strip, if_neg hSome, dif_pos hZero, ih]
    obtain ⟨tens, rfl⟩ : ∃ tens, digits = tens * 10 :=
      ⟨digits / 10, (Nat.div_mul_cancel (Nat.dvd_of_mod_eq_zero hZero.1)).symm⟩
    show ((tens * 10 / 10 : Nat) : ℚ) * 10 ^ (exponent + 1) = (tens * 10 : Nat) * 10 ^ exponent
    rw [Nat.mul_div_cancel _ (by decide), zpow_add_one₀ (by norm_num), Nat.cast_mul]
    ring
  | case3 d hSome hOther => rw [Decimal.strip, if_neg hSome, dif_neg hOther]

/-- The decimal that identifies a number rounds to it. -/
theorem roundsTo_shortest (h : 0 < m) : RoundsTo m e (shortest tie m e).value := by
  rw [shortest, Decimal.value_strip]
  generalize hFound : (List.range 17).findSome? _ = found
  cases found with
  | none =>
    rw [Option.getD_none, exactDecimal_value]
    exact .self h
  | some d =>
    obtain ⟨n, -, hGrid⟩ := List.exists_of_findSome?_eq_some hFound
    exact roundsTo_of_readsBack (readsBack_of_onGrid? hGrid)

end EntityGen.Number
