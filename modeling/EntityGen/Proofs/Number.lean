import EntityGen.Number.Text

/-! Numbers in generated code. Numbers of one value are equal, or both are zeros and differ in the
sign only, and have one text. No text of a number has a character that ends an argument. -/

namespace EntityGen.Number

variable {x y : Number}

/-- A zero, of either sign. -/
def IsZero (x : Number) : Prop := ∃ negative exponent, x = .finite negative 0 exponent

theorem sameValue_refl (x : Number) : x.sameValue x := by
  rw [sameValue.eq_def]
  split
  · rfl
  · exact beq_self_eq_true x

theorem eq_or_isZero (h : x.sameValue y) : x = y ∨ (x.IsZero ∧ y.IsZero) := by
  rw [sameValue.eq_def] at h
  split at h
  · exact .inr ⟨⟨_, _, rfl⟩, ⟨_, _, rfl⟩⟩
  · exact .inl (eq_of_beq h)

theorem IsZero.toInt? (h : x.IsZero) : x.toInt? = some 0 := by
  obtain ⟨negative, exponent, rfl⟩ := h
  rw [Number.toInt?]
  by_cases hExponent : 0 ≤ exponent
  · simp [hExponent]
  · simp [hExponent]

/-- Numbers of one value have one text in generated code. -/
theorem sourceText_eq (h : x.sameValue y) : x.sourceText = y.sourceText := by
  rcases eq_or_isZero h with rfl | ⟨hx, hy⟩
  · rfl
  · have hSmall : Int.natAbs 0 < tenPower 15 := by decide
    rw [sourceText, sourceText, hx.toInt?, hy.toInt?]
    simp only [hSmall, if_true]

/-! ### Characters -/

/-- A character that may stand in the text of a number without its sign. -/
def isMagnitudeChar (c : Char) : Bool := c.isDigit || ['.', 'N', 'a', 'i', 'n', 'f'].contains c

/-- A character that may stand in the text of a number. -/
def isNumberChar (c : Char) : Bool := c == '-' || isMagnitudeChar c

/-- A text that may be that of a number without its sign. There is a point only behind a digit. -/
structure IsMagnitude (text : List Char) : Prop where
  starts : ∃ first rest, text = first :: rest ∧ (first.isDigit = true ∨ '.' ∉ text)
  chars : ∀ c ∈ text, isMagnitudeChar c = true

theorem isMagnitudeChar_of_isDigit {c : Char} (h : c.isDigit = true) :
    isMagnitudeChar c = true := by
  rw [isMagnitudeChar, h, Bool.true_or]

/-- Digits, and perhaps more behind them. -/
theorem IsMagnitude.ofDigits {digits more : List Char} (hNil : digits ≠ [])
    (hDigits : ∀ c ∈ digits, c.isDigit = true) (hMore : ∀ c ∈ more, isMagnitudeChar c = true) :
    IsMagnitude (digits ++ more) where
  starts := by
    cases digits with
    | nil => exact absurd rfl hNil
    | cons first rest => exact ⟨first, rest ++ more, rfl, .inl (hDigits first List.mem_cons_self)⟩
  chars := List.forall_mem_append.mpr ⟨fun c hc => isMagnitudeChar_of_isDigit (hDigits c hc), hMore⟩

theorem isDigit_natDigits {n : Nat} : ∀ c ∈ natDigits n, c.isDigit = true :=
  fun _ hc => Nat.isDigit_of_mem_toDigits (by decide) (by decide) hc

theorem natDigits_ne_nil {n : Nat} : natDigits n ≠ [] := Nat.toDigits_ne_nil

theorem isMagnitude_natDigits (n : Nat) : IsMagnitude (natDigits n) := by
  have hDigits := IsMagnitude.ofDigits (natDigits_ne_nil (n := n)) isDigit_natDigits
    (List.forall_mem_nil _)
  rwa [List.append_nil] at hDigits

theorem isMagnitudeChar_zeros {n : Nat} : ∀ c ∈ zeros n, isMagnitudeChar c = true := by
  intro c hc
  rw [(List.mem_replicate.mp hc).2]
  decide

theorem Decimal.isMagnitude_plain (d : Decimal) : IsMagnitude d.plain := by
  have hPoint : isMagnitudeChar '.' = true := by decide
  have hDigits : ∀ c ∈ natDigits d.digits, c.isDigit = true := isDigit_natDigits
  rw [Decimal.plain]
  split
  · exact .ofDigits natDigits_ne_nil hDigits isMagnitudeChar_zeros
  · split
    · rename_i hPositive
      refine .ofDigits (fun hNil => ?_) (fun c hc => hDigits c (List.mem_of_mem_take hc))
        (List.forall_mem_cons.mpr ⟨hPoint, fun c hc => ?_⟩)
      · rcases List.take_eq_nil_iff.mp hNil with hZero | hNil
        · omega
        · exact natDigits_ne_nil hNil
      · exact isMagnitudeChar_of_isDigit (hDigits c (List.mem_of_mem_drop hc))
    · have hZero : ∀ c ∈ ['0'], c.isDigit = true := List.forall_mem_singleton.mpr (by decide)
      have hMore (n : Nat) : ∀ c ∈ zeros n ++ natDigits d.digits, isMagnitudeChar c = true :=
        List.forall_mem_append.mpr
          ⟨isMagnitudeChar_zeros, fun c hc => isMagnitudeChar_of_isDigit (hDigits c hc)⟩
      have hText (n : Nat) : IsMagnitude (['0'] ++ '.' :: (zeros n ++ natDigits d.digits)) :=
        .ofDigits (List.cons_ne_nil '0' []) hZero (List.forall_mem_cons.mpr ⟨hPoint, hMore n⟩)
      exact hText _

theorem isMagnitude_of_name {text : List Char} (h : text ∈ [['N', 'a', 'N'], ['i', 'n', 'f']]) :
    IsMagnitude text := by
  simp only [List.mem_cons, List.not_mem_nil, or_false] at h
  rcases h with rfl | rfl
  · exact ⟨⟨_, _, rfl, .inr (by decide)⟩, List.all_eq_true.mp (by decide)⟩
  · exact ⟨⟨_, _, rfl, .inr (by decide)⟩, List.all_eq_true.mp (by decide)⟩

/-- The text of a number has a magnitude, behind a sign if the number has one. -/
theorem plainText_eq_signed (x : Number) :
    ∃ negative magnitude, x.plainText = signed negative magnitude ∧ IsMagnitude magnitude := by
  rw [plainText.eq_def]
  split
  · exact ⟨false, _, rfl, isMagnitude_of_name (by decide)⟩
  · exact ⟨_, _, rfl, isMagnitude_of_name (by decide)⟩
  · exact ⟨_, _, rfl, isMagnitude_natDigits 0⟩
  · exact ⟨_, _, rfl, Decimal.isMagnitude_plain _⟩

theorem sourceText_eq_signed (x : Number) :
    ∃ negative magnitude, x.sourceText = signed negative magnitude ∧ IsMagnitude magnitude := by
  rw [sourceText]
  split
  · split
    · exact ⟨_, _, rfl, isMagnitude_natDigits _⟩
    · exact plainText_eq_signed x
  · exact plainText_eq_signed x

theorem sourceText_ne_nil (x : Number) : x.sourceText.toList ≠ [] := by
  obtain ⟨negative, magnitude, hText, ⟨first, rest, rfl, -⟩, -⟩ := sourceText_eq_signed x
  rw [hText, signed, String.toList_ofList]
  cases negative <;> exact List.cons_ne_nil _ _

theorem isNumberChar_sourceText (x : Number) :
    ∀ c ∈ x.sourceText.toList, isNumberChar c = true := by
  obtain ⟨negative, magnitude, hText, -, hChars⟩ := sourceText_eq_signed x
  have hMagnitude : ∀ c ∈ magnitude, isNumberChar c = true := fun c hc => by
    rw [isNumberChar, hChars c hc, Bool.or_true]
  rw [hText, signed, String.toList_ofList]
  cases negative with
  | false => exact hMagnitude
  | true => exact List.forall_mem_cons.mpr ⟨rfl, hMagnitude⟩

end EntityGen.Number
