import EntityGen.Number.Reader
import EntityGen.Proofs.Number
import EntityGen.Proofs.Number.Shortest
import Mathlib.Data.List.TakeWhile

/-! The text of a number in generated code is read as the number. A finite number that is not zero is
written with a decimal that rounds to it, and such a decimal is read as the number. -/

namespace EntityGen.Number

variable {m : Nat} {e : Int} {negative : Bool} {digits text whole fraction : List Char}

/-! ### Digits -/

theorem digitsValue_natDigits (n : Nat) : digitsValue (natDigits n) = n :=
  Nat.ofDigitChars_toDigits (by decide) (by decide)

theorem digitsValue_append (first second : List Char) : digitsValue (first ++ second) =
    10 ^ second.length * digitsValue first + digitsValue second := by
  induction second using List.reverseRecOn with
  | nil => simp [digitsValue]
  | append_singleton second c ih =>
    have hLast (digits : List Char) :
        digitsValue (digits ++ [c]) = 10 * digitsValue digits + digitValue c := by
      simp [digitsValue]
    rw [← List.append_assoc, hLast, hLast, ih, List.length_append, List.length_singleton, pow_succ]
    ring

theorem digitsValue_zeros (n : Nat) : digitsValue (zeros n) = 0 := by
  induction n with
  | zero => rfl
  | succ n ih =>
    have hZero : zeros (n + 1) = ['0'] ++ zeros n := rfl
    have hDigit : digitsValue ['0'] = 0 := rfl
    rw [hZero, digitsValue_append, hDigit, ih, Nat.mul_zero]

theorem digitsValue_cons_zero (digits : List Char) :
    digitsValue ('0' :: digits) = digitsValue digits := by
  have hDigit : digitsValue ['0'] = 0 := rfl
  rw [← List.singleton_append, digitsValue_append, hDigit, Nat.mul_zero, Nat.zero_add]

/-- Zeros in front do not count. -/
theorem digitsValue_dropWhile (digits : List Char) :
    digitsValue (digits.dropWhile (· == '0')) = digitsValue digits := by
  induction digits with
  | nil => rfl
  | cons c rest ih =>
    rw [List.dropWhile_cons]
    split
    · rename_i hZero
      rw [ih, eq_of_beq hZero, digitsValue_cons_zero]
    · rfl

theorem toNat_of_isDigit {c : Char} (h : c.isDigit = true) :
    c.toNat = 48 + digitValue c ∧ digitValue c < 10 := by
  simp only [Char.isDigit, Bool.and_eq_true, decide_eq_true_eq, ge_iff_le,
    UInt32.le_iff_toNat_le] at h
  have hEnds : '0'.val.toNat = 48 ∧ '9'.val.toNat = 57 ∧ '0'.toNat = 48 := by decide
  have hCode : c.toNat = c.val.toNat := rfl
  rw [digitValue]
  omega

theorem digitsValue_singleton (c : Char) : digitsValue [c] = digitValue c := by
  simp [digitsValue]

theorem digitsValue_cons (c : Char) (rest : List Char) :
    digitsValue (c :: rest) = 10 ^ rest.length * digitValue c + digitsValue rest := by
  rw [← List.singleton_append, digitsValue_append, digitsValue_singleton]

theorem digitsValue_lt (h : ∀ c ∈ digits, c.isDigit = true) :
    digitsValue digits < 10 ^ digits.length := by
  induction digits with
  | nil => decide
  | cons c rest ih =>
    rw [List.forall_mem_cons] at h
    have hRest := ih h.2
    have hDigit := Nat.mul_le_mul_left (10 ^ rest.length)
      (Nat.le_of_lt_succ (toNat_of_isDigit h.1).2)
    rw [digitsValue_cons, List.length_cons, pow_succ]
    omega

/-- Digits without a zero in front are at least the power of ten of their length. -/
theorem le_digitsValue {c : Char} {rest : List Char} (h : c.isDigit = true) (hZero : c ≠ '0') :
    10 ^ rest.length ≤ digitsValue (c :: rest) := by
  have hPos : 0 < digitValue c := by
    refine Nat.pos_of_ne_zero fun hNone => hZero (Char.toNat_inj.mp ?_)
    rw [(toNat_of_isDigit h).1, hNone]
    rfl
  rw [digitsValue_cons]
  exact (Nat.le_mul_of_pos_right _ hPos).trans (Nat.le_add_right _ _)

/-! ### Decimals that are read -/

/-- What rounds to a finite number lies between two powers of ten. -/
theorem RoundsTo.bounds {v : ℚ} (hPos : 0 < m) (hCanonical : (finite negative m e).Canonical)
    (h : RoundsTo m e v) : (10 : ℚ) ^ (-331 : Int) ≤ v ∧ v < 10 ^ (310 : Int) := by
  obtain ⟨hLeast, hMost, hMantissa, -⟩ := hCanonical
  rw [minExponent] at hLeast
  rw [maxExponent] at hMost
  constructor
  · have hQuarters : 1 ≤ lowQuarters m e := by
      rw [lowQuarters]
      split <;> omega
    calc (10 : ℚ) ^ (-331 : Int) ≤ 2 ^ (-1076 : Int) := by
          rw [zpow_neg, zpow_neg]
          exact inv_anti₀ (two_zpow_pos 1076) (by exact_mod_cast (by decide +kernel))
      _ ≤ 2 ^ (e - 2) := zpow_le_zpow_right₀ (by norm_num) (by omega)
      _ ≤ lowQuarters m e * 2 ^ (e - 2) :=
        le_mul_of_one_le_left (two_zpow_pos _).le (by exact_mod_cast hQuarters)
      _ ≤ v := h.low
  · have hQuarters := (highQuarters_lt hMantissa).le
    calc v ≤ highQuarters m * 2 ^ (e - 2) := h.high
      _ ≤ twoPower 55 * 2 ^ (e - 2) :=
        mul_le_mul_of_nonneg_right (by exact_mod_cast hQuarters) (two_zpow_pos _).le
      _ = 2 ^ ((55 : Nat) + (e - 2)) := twoPower_mul_zpow 55 (e - 2)
      _ ≤ 2 ^ (1024 : Int) := zpow_le_zpow_right₀ (by norm_num) (by omega)
      _ < 10 ^ (310 : Int) := by exact_mod_cast (by decide +kernel)

theorem ten_zpow_pos (i : Int) : (0 : ℚ) < 10 ^ i := zpow_pos (by norm_num) i

/-- The power of ten that scaled digits stay below. -/
theorem scaled_lt_power (h : ∀ c ∈ digits, c.isDigit = true) (exponent : Int) :
    (digitsValue digits : ℚ) * 10 ^ exponent < 10 ^ (digits.length + exponent) := by
  rw [zpow_add₀ (by norm_num), zpow_natCast]
  exact mul_lt_mul_of_pos_right (by exact_mod_cast digitsValue_lt h) (ten_zpow_pos _)

/-- The power of ten that scaled digits reach, if no zero is in front of them. -/
theorem power_le_scaled {c : Char} {rest : List Char} (h : c.isDigit = true) (hZero : c ≠ '0')
    (exponent : Int) :
    (10 : ℚ) ^ (rest.length + exponent) ≤ digitsValue (c :: rest) * 10 ^ exponent := by
  have hValue : 10 ^ rest.length ≤ digitsValue (c :: rest) := le_digitsValue h hZero
  rw [zpow_add₀ (by norm_num), zpow_natCast]
  exact mul_le_mul_of_nonneg_right (by exact_mod_cast hValue) (ten_zpow_pos _).le

/-- Digits without a zero in front, by the power of ten that they are scaled to. -/
theorem scale_bounds {exponent : Int} (hDigits : ∀ c ∈ digits, c.isDigit = true)
    (hFirst : ∀ c rest, digits = c :: rest → c ≠ '0') {low high : Int}
    (hLow : (10 : ℚ) ^ low ≤ digitsValue digits * 10 ^ exponent)
    (hHigh : (digitsValue digits : ℚ) * 10 ^ exponent < 10 ^ high) :
    low < digits.length + exponent ∧ digits.length + exponent ≤ high := by
  have hUnder := scaled_lt_power hDigits exponent
  refine ⟨(zpow_lt_zpow_iff_right₀ (by norm_num)).mp (hLow.trans_lt hUnder), ?_⟩
  cases digits with
  | nil =>
    have hNone : digitsValue [] = 0 := rfl
    rw [hNone, Nat.cast_zero, zero_mul] at hLow
    exact absurd hLow (not_le_of_gt (ten_zpow_pos _))
  | cons c rest =>
    have hReached : (10 : ℚ) ^ (rest.length + exponent) ≤ _ :=
      power_le_scaled (hDigits c List.mem_cons_self) (hFirst c rest rfl) exponent
    have hPower := (zpow_lt_zpow_iff_right₀ (by norm_num)).mp (hReached.trans_lt hHigh)
    rw [List.length_cons]
    omega

theorem ne_zero_of_dropWhile {c : Char} {rest : List Char}
    (h : digits.dropWhile (· == '0') = c :: rest) : c ≠ '0' := by
  rintro rfl
  have hHead := List.head?_dropWhile_not (· == '0') digits
  rw [h] at hHead
  cases hHead

/-- Scaled digits that are neither past all finite numbers nor below them are read as the quotient
that is their value. -/
theorem ofDecimal_eq_ofRatio {exponent : Int} (negative : Bool)
    (hDigits : ∀ c ∈ digits, c.isDigit = true)
    (hLow : (10 : ℚ) ^ (-331 : Int) ≤ digitsValue digits * 10 ^ exponent)
    (hHigh : (digitsValue digits : ℚ) * 10 ^ exponent < 10 ^ (310 : Int)) :
    ∃ num den : Nat, 0 < num ∧ 0 < den ∧ (num : ℚ) / den = digitsValue digits * 10 ^ exponent ∧
      ofDecimal negative digits exponent = ofRatio negative num den := by
  have hKept : ∀ c ∈ digits.dropWhile (· == '0'), c.isDigit = true :=
    fun c hc => hDigits c ((List.dropWhile_sublist _).subset hc)
  rw [← digitsValue_dropWhile] at hLow hHigh ⊢
  obtain ⟨hEnough, hFew⟩ := scale_bounds hKept (fun _ _ => ne_zero_of_dropWhile) hLow hHigh
  rw [ofDecimal]
  generalize digits.dropWhile (· == '0') = kept at *
  have hSome : digitsValue kept ≠ 0 := by
    intro hNone
    rw [hNone, Nat.cast_zero, zero_mul] at hLow
    exact absurd hLow (not_le_of_gt (ten_zpow_pos _))
  have hValue : 0 < digitsValue kept := Nat.pos_of_ne_zero hSome
  rw [if_neg (by simpa using hSome), if_neg (by omega), if_neg (by omega)]
  split
  · refine ⟨_, _, Nat.mul_pos hValue (tenPower_pos _), Nat.one_pos, ?_, rfl⟩
    rw [Nat.cast_mul, tenPower_cast, ← zpow_eq_pow_toNat (by omega), Nat.cast_one, div_one]
  · have hScale := @zpow_mul_pow_neg 10 (by norm_num) exponent (by omega)
    refine ⟨_, _, hValue, tenPower_pos _, ?_, rfl⟩
    rw [tenPower_cast, div_eq_mul_inv, ← eq_inv_of_mul_eq_one_left hScale]

/-- Scaled digits that round to a number are read as the number. -/
theorem ofDecimal_of_roundsTo {exponent : Int} (hDigits : ∀ c ∈ digits, c.isDigit = true)
    (hPos : 0 < m) (hCanonical : (finite negative m e).Canonical)
    (h : RoundsTo m e (digitsValue digits * 10 ^ exponent)) :
    ofDecimal negative digits exponent = .finite negative m e := by
  obtain ⟨hLow, hHigh⟩ := h.bounds hPos hCanonical
  obtain ⟨num, den, hNum, hDen, hValue, hRead⟩ := ofDecimal_eq_ofRatio negative hDigits hLow hHigh
  rw [hRead]
  exact ofRatio_of_roundsTo hNum hDen hCanonical (hValue ▸ h)

/-! ### Positional numerals -/

/-- A text is a positional numeral: digits, and perhaps a point with more digits behind it. Only a
single digit before the point may be a zero in front. -/
structure Positional (text whole fraction : List Char) : Prop where
  parts : fraction = [] ∧ text = whole ∨ text = whole ++ '.' :: fraction
  starts : whole = ['0'] ∨ ∃ c rest, whole = c :: rest ∧ c ≠ '0'
  digits : ∀ c ∈ whole ++ fraction, c.isDigit = true

/-- The value of a positional numeral. -/
def positionalValue (whole fraction : List Char) : ℚ :=
  digitsValue (whole ++ fraction) * 10 ^ (-(fraction.length : Int))

theorem Positional.takeWhile_isDigit (h : Positional text whole fraction) :
    text.takeWhile Char.isDigit = whole := by
  have hWhole : ∀ c ∈ whole, c.isDigit = true := fun c hc => h.digits c (List.mem_append_left _ hc)
  rcases h.parts with ⟨-, rfl⟩ | rfl
  · exact List.takeWhile_eq_self_iff.mpr hWhole
  · rw [List.takeWhile_append_of_pos hWhole, List.takeWhile_cons_of_neg (by decide), List.append_nil]

/-- A positional numeral is read as its digits, scaled by the number of those behind the point. -/
theorem Positional.readMagnitude? (h : Positional text whole fraction) (negative : Bool) :
    readMagnitude? negative text =
      some (ofDecimal negative (whole ++ fraction) (-(fraction.length : Int))) := by
  have hWhole : ∀ c ∈ whole, c.isDigit = true := fun c hc => h.digits c (List.mem_append_left _ hc)
  have hFraction : ∀ c ∈ fraction, c.isDigit = true :=
    fun c hc => h.digits c (List.mem_append_right _ hc)
  have hSome : whole.isEmpty = false := by
    rcases h.starts with rfl | ⟨c, rest, rfl, -⟩ <;> rfl
  rw [Number.readMagnitude?, h.takeWhile_isDigit]
  rcases h.parts with ⟨rfl, rfl⟩ | rfl
  · have hEnd : text.dropWhile Char.isDigit = [] := List.dropWhile_eq_nil_iff.mpr hWhole
    rw [hEnd]
    simp [hSome, readExponent?]
  · have hPoint : (whole ++ '.' :: fraction).dropWhile Char.isDigit = '.' :: fraction := by
      rw [List.dropWhile_append_of_pos hWhole, List.dropWhile_cons_of_neg (by decide)]
    have hTake : fraction.takeWhile Char.isDigit = fraction :=
      List.takeWhile_eq_self_iff.mpr hFraction
    have hDrop : fraction.dropWhile Char.isDigit = [] := List.dropWhile_eq_nil_iff.mpr hFraction
    rw [hPoint]
    simp [hSome, hTake, hDrop, readExponent?]

/-- A positional numeral is read as the number that its value rounds to. -/
theorem Positional.read_eq (h : Positional text whole fraction) (hPos : 0 < m)
    (hCanonical : (finite negative m e).Canonical)
    (hRounds : RoundsTo m e (positionalValue whole fraction)) :
    Number.readMagnitude? negative text = some (.finite negative m e) := by
  rw [h.readMagnitude?, ofDecimal_of_roundsTo h.digits hPos hCanonical hRounds]

theorem natDigits_starts {n : Nat} (h : 0 < n) : ∃ c rest, natDigits n = c :: rest ∧ c ≠ '0' := by
  rcases hDigits : natDigits n with _ | ⟨c, rest⟩
  · exact absurd hDigits natDigits_ne_nil
  refine ⟨c, rest, rfl, ?_⟩
  rintro rfl
  -- behind a zero there would be too few digits
  have hValue := digitsValue_natDigits n
  rw [hDigits, digitsValue_cons_zero] at hValue
  have hRest : n < 10 ^ rest.length := by
    rw [← hValue]
    refine digitsValue_lt fun c hc => isDigit_natDigits (n := n) c ?_
    rw [hDigits]
    exact List.mem_cons_of_mem _ hc
  cases rest with
  | nil => simp at hRest; omega
  | cons d more =>
    have hLength := (Nat.length_toDigits_le_iff (by decide) (List.length_pos_of_mem
      List.mem_cons_self)).mpr hRest
    rw [← natDigits, hDigits] at hLength
    simp at hLength

/-- The digits of a natural are a numeral of it. -/
theorem positional_natDigits {n : Nat} (h : 0 < n) : Positional (natDigits n) (natDigits n) [] where
  parts := .inl ⟨rfl, rfl⟩
  starts := .inr (natDigits_starts h)
  digits := by
    rw [List.append_nil]
    exact isDigit_natDigits

theorem positionalValue_natDigits (n : Nat) : positionalValue (natDigits n) [] = n := by
  rw [positionalValue, List.append_nil, digitsValue_natDigits]
  simp

theorem isDigit_zeros (n : Nat) : ∀ c ∈ zeros n, c.isDigit = true := by
  intro c hc
  rw [(List.mem_replicate.mp hc).2]
  rfl

/-- The text of a decimal is a numeral of its value. -/
theorem Decimal.positional_plain {d : Decimal} (h : 0 < d.digits) :
    ∃ whole fraction, Positional d.plain whole fraction ∧
      positionalValue whole fraction = d.value := by
  obtain ⟨c, rest, hFirst, hZero⟩ := natDigits_starts h
  have hDigits : ∀ c ∈ natDigits d.digits, c.isDigit = true := isDigit_natDigits
  have hValue := digitsValue_natDigits d.digits
  rw [Decimal.plain]
  generalize natDigits d.digits = digits at *
  split
  · rename_i hNatural
    have hStarts : digits ++ zeros d.exponent.toNat = c :: (rest ++ zeros d.exponent.toNat) := by
      rw [hFirst, List.cons_append]
    refine ⟨_, [], ⟨.inl ⟨rfl, rfl⟩, .inr ⟨c, _, hStarts, hZero⟩, ?_⟩, ?_⟩
    · rw [List.append_nil]
      exact List.forall_mem_append.mpr ⟨hDigits, isDigit_zeros _⟩
    · rw [positionalValue, List.append_nil, digitsValue_append, digitsValue_zeros, hValue,
        Decimal.value, zpow_eq_pow_toNat hNatural, zeros, List.length_replicate]
      simp [mul_comm]
  split
  · rename_i hFraction hPoint
    generalize hPlace : ((digits.length : Int) + d.exponent).toNat = place
    obtain ⟨before, rfl⟩ : ∃ before, place = before + 1 := ⟨place - 1, by omega⟩
    have hStarts : digits.take (before + 1) = c :: rest.take before := by
      rw [hFirst, List.take_succ_cons]
    refine ⟨_, _, ⟨.inr rfl, .inr ⟨c, _, hStarts, hZero⟩, ?_⟩, ?_⟩
    · rw [List.take_append_drop]
      exact hDigits
    · rw [positionalValue, List.take_append_drop, List.length_drop, hValue, Decimal.value]
      congr 2
      omega
  · rename_i hFraction hPoint
    generalize hPlaces : (-((digits.length : Int) + d.exponent)).toNat = places
    refine ⟨['0'], zeros places ++ digits, ⟨.inr rfl, .inl rfl, ?_⟩, ?_⟩
    · exact List.forall_mem_append.mpr
        ⟨isDigit_zeros 1, List.forall_mem_append.mpr ⟨isDigit_zeros places, hDigits⟩⟩
    · rw [positionalValue, List.singleton_append, digitsValue_cons_zero, digitsValue_append,
        digitsValue_zeros, hValue, Decimal.value, List.length_append, zeros,
        List.length_replicate, Nat.mul_zero, Nat.zero_add]
      congr 2
      omega

/-! ### The text of a number -/

/-- An integral number is its magnitude with a sign. -/
theorem toInt?_eq_some {i : Int} (h : (finite negative m e).toInt? = some i) :
    ∃ magnitude : Nat, (magnitude : ℚ) = m * 2 ^ e ∧
      i = if negative then -(magnitude : Int) else magnitude := by
  rw [toInt?] at h
  obtain ⟨_, hCast, rfl⟩ := Option.map_eq_some_iff.mp h
  obtain ⟨magnitude, hMagnitude, hSame⟩ := Option.bind_eq_some_iff.mp hCast
  obtain rfl := Option.some.inj hSame
  refine ⟨magnitude, ?_, rfl⟩
  split at hMagnitude
  · obtain rfl := Option.some.inj hMagnitude
    rw [Nat.cast_mul, twoPower_cast, zpow_eq_pow_toNat (by omega)]
  · split at hMagnitude
    · rename_i hRest
      obtain rfl := Option.some.inj hMagnitude
      have hScale := @zpow_mul_pow_neg 2 (by norm_num) e (by omega)
      have hWhole : m / twoPower (-e).toNat * twoPower (-e).toNat = m :=
        Nat.div_mul_cancel (Nat.dvd_of_mod_eq_zero (eq_of_beq hRest))
      have hCast : ((m / twoPower (-e).toNat : Nat) : ℚ) * 2 ^ (-e).toNat = m := by
        rw [← twoPower_cast]
        exact_mod_cast hWhole
      rw [← hCast, mul_assoc, mul_comm (2 ^ (-e).toNat : ℚ), hScale, mul_one]
    · cases hMagnitude

theorem Decimal.digits_pos {d : Decimal} (h : 0 < d.value) : 0 < d.digits := by
  refine Nat.pos_of_ne_zero fun hNone => ?_
  rw [Decimal.value, hNone, Nat.cast_zero, zero_mul] at h
  exact lt_irrefl 0 h

/-- A finite number that is not zero is written as its sign and a numeral that rounds to it. -/
theorem sourceText_finite (hPos : 0 < m) (hCanonical : (finite negative m e).Canonical) :
    ∃ text whole fraction, (finite negative m e).sourceText = signed negative text ∧
      Positional text whole fraction ∧ RoundsTo m e (positionalValue whole fraction) := by
  have hPlain : ∃ text whole fraction, (finite negative m e).plainText = signed negative text ∧
      Positional text whole fraction ∧ RoundsTo m e (positionalValue whole fraction) := by
    have hRounds : RoundsTo m e (shortest .up m e).value := roundsTo_shortest hPos
    have hValue := (ten_zpow_pos _).trans_le (hRounds.bounds hPos hCanonical).1
    obtain ⟨whole, fraction, hText, hSame⟩ := Decimal.positional_plain (Decimal.digits_pos hValue)
    refine ⟨_, whole, fraction, ?_, hText, hSame ▸ hRounds⟩
    obtain ⟨n, rfl⟩ : ∃ n, m = n + 1 := ⟨m - 1, by omega⟩
    rfl
  rw [sourceText]
  split
  · rename_i i hInt
    obtain ⟨magnitude, hValue, hSigned⟩ := toInt?_eq_some hInt
    split
    · have hSome : 0 < magnitude := by
        have hCast : (0 : ℚ) < magnitude := by
          rw [hValue]
          exact mul_pos (by exact_mod_cast hPos) (two_zpow_pos e)
        exact_mod_cast hCast
      refine ⟨natDigits magnitude, _, [], ?_, positional_natDigits hSome, ?_⟩
      · rw [intText, hSigned]
        cases negative with
        | false =>
          have hSign : decide ((magnitude : Int) < 0) = false := decide_eq_false (by omega)
          simp [hSign]
        | true => simp [hSome]
      · rw [positionalValue_natDigits, hValue]
        exact .self hPos
    · exact hPlain
  · exact hPlain

/-! ### Numbers that are read -/

theorem canonical_ofDecimal (negative : Bool) (digits : List Char) (exponent : Int) :
    (ofDecimal negative digits exponent).Canonical := by
  rw [ofDecimal]
  split
  · exact canonical_zero negative
  split
  · trivial
  split
  · exact canonical_zero negative
  split
  · exact canonical_ofRatio negative (by decide)
  · exact canonical_ofRatio negative (tenPower_pos _)

theorem canonical_readMagnitude? {x : Number} (h : readMagnitude? negative text = some x) :
    x.Canonical := by
  rw [readMagnitude?] at h
  split at h
  split at h
  · cases h
  · obtain ⟨exponent, -, rfl⟩ := Option.map_eq_some_iff.mp h
    exact canonical_ofDecimal _ _ _

theorem canonical_readSpecial? {x : Number} (h : readSpecial? negative text = some x) :
    x.Canonical := by
  rw [readSpecial?] at h
  split at h
  · exact Option.some.inj h ▸ trivial
  split at h
  · exact Option.some.inj h ▸ trivial
  · cases h

/-- A number that is read has the one form of its value. -/
theorem canonical_read? {x : Number} (h : read? text = some x) : x.Canonical := by
  simp only [read?, Option.or_eq_some_iff] at h
  rcases h with hSpecial | ⟨-, hMagnitude⟩
  · exact canonical_readSpecial? hSpecial
  · exact canonical_readMagnitude? hMagnitude

end EntityGen.Number
