import MetricFormula.Calculation.Text

/-!
# Reading back the numbers of formulas

A ratio that is itself a value is rounded to that value, so every decimal that equals a value is
read back as it. The digits that formulas write for a number are such a decimal or were chosen
because they read back.

## Main results

* `Decimal.ofPositional?_positional`: positional notation is read back as an equal decimal;
* `Magnitude.ofDecimal?_shortest`: the shortest decimal reads back, however ties are broken;
* `Binary64.ofDecimal_formulaText`: so does the text of a number in formulas.
-/

namespace MetricFormula

/-! ## The unit -/

theorem unitExponent_pos : 0 < unitExponent := by
  decide

theorem unitsPerOne_eq : unitsPerOne = 2 ^ unitExponent := rfl

theorem unitsPerOne_pos : 0 < unitsPerOne := by
  rw [unitsPerOne_eq]
  exact Nat.pow_pos Nat.two_pos

theorem unitsPerOne_lt_unitsLimit : unitsPerOne < unitsLimit := by
  unfold unitsPerOne unitsLimit
  exact Nat.pow_lt_pow_right Nat.one_lt_two (by decide)

-- Unfolded, these powers of two are numerals that no unifier should count.
attribute [local irreducible] unitExponent unitsPerOne unitsLimit Magnitude.exactDecimal

namespace Decimal

/-! ## Positional notation -/

/-- Reading digits alone. -/
theorem ofPositional?_digits {digits : List Char} (hne : digits ≠ [])
    (hdigits : ∀ c ∈ digits, c.isDigit) :
    ofPositional? digits = some ⟨Nat.ofDigitChars 10 digits 0, 0⟩ := by
  have htake := @List.takeWhile_append_of_pos _ Char.isDigit digits [] hdigits
  have hdrop := @List.dropWhile_append_of_pos _ Char.isDigit digits [] hdigits
  simp only [List.append_nil, List.takeWhile_nil, List.dropWhile_nil] at htake hdrop
  simp [ofPositional?, htake, hdrop, hne]

/-- Reading digits on both sides of a point. -/
theorem ofPositional?_point {whole fraction : List Char} (hne : whole ≠ [])
    (hwhole : ∀ c ∈ whole, c.isDigit) (hfraction : ∀ c ∈ fraction, c.isDigit) :
    ofPositional? (whole ++ '.' :: fraction) =
      some ⟨Nat.ofDigitChars 10 (whole ++ fraction) 0, -(fraction.length : Int)⟩ := by
  have htake := @List.takeWhile_append_of_pos _ Char.isDigit whole ('.' :: fraction) hwhole
  have hdrop := @List.dropWhile_append_of_pos _ Char.isDigit whole ('.' :: fraction) hwhole
  have hpoint : ¬Char.isDigit '.' := by decide
  rw [List.takeWhile_cons_of_neg hpoint, List.append_nil] at htake
  rw [List.dropWhile_cons_of_neg hpoint] at hdrop
  have hall : fraction.all Char.isDigit = true := List.all_eq_true.2 hfraction
  simp [ofPositional?, htake, hdrop, hne, hall]

/-- Whatever is read is digits and points, and there is a character to read. -/
theorem chars_of_ofPositional? {text : List Char} {d : Decimal}
    (h : ofPositional? text = some d) : text ≠ [] ∧ ∀ c ∈ text, c.isDigit ∨ c = '.' := by
  have hsplit := List.takeWhile_append_dropWhile (p := Char.isDigit) (l := text)
  have hwhole : ∀ c ∈ text.takeWhile Char.isDigit, c.isDigit :=
    fun c hc => List.all_eq_true.1 List.all_takeWhile c hc
  unfold ofPositional? at h
  split at h
  next hrest =>
    rw [hrest, List.append_nil] at hsplit
    dsimp only at h
    split at h
    next => cases h
    next hne =>
      rw [hsplit] at hne hwhole
      exact ⟨by simpa using hne, fun c hc => .inl (hwhole c hc)⟩
  next fraction hrest =>
    rw [hrest] at hsplit
    dsimp only at h
    split at h
    next hcond =>
      obtain ⟨hfraction, -⟩ := Bool.and_eq_true_iff.1 hcond
      -- The text is the whole digits, the point and the digits behind it.
      rw [← hsplit]
      refine ⟨by simp, fun c hc => ?_⟩
      rcases List.mem_append.1 hc with hc | hc
      · exact .inl (hwhole c hc)
      · rcases List.mem_cons.1 hc with hc | hc
        · exact .inr hc
        · exact .inl (List.all_eq_true.1 hfraction c hc)
    next => cases h
  next => cases h

/-- The decimal digits of a natural number are digits. -/
theorem isDigit_of_mem_toDigits {n : Nat} : ∀ c ∈ Nat.toDigits 10 n, c.isDigit :=
  fun _ => Nat.isDigit_of_mem_toDigits (by decide) (by decide)

/-- Zeros on the left are digits, too. -/
theorem isDigit_of_mem_paddedDigits {width n : Nat} : ∀ c ∈ paddedDigits width n, c.isDigit := by
  intro c hc
  rcases List.mem_append.1 hc with hc | hc
  · rw [List.eq_of_mem_replicate hc]
    decide
  · exact isDigit_of_mem_toDigits c hc

/-- Zeros on the left do not change what digits say. -/
theorem ofDigitChars_paddedDigits (width n : Nat) :
    Nat.ofDigitChars 10 (paddedDigits width n) 0 = n := by
  rw [paddedDigits, Nat.ofDigitChars_append, Nat.ofDigitChars_replicate_zero, Nat.mul_zero,
    Nat.ofDigitChars_ten_toDigits]

/-- A number of few digits is filled up to the width exactly. -/
theorem length_paddedDigits {width n : Nat} (hwidth : 0 < width) (h : n < 10 ^ width) :
    (paddedDigits width n).length = width := by
  have hlength := (Nat.length_toDigits_le_iff (by decide) hwidth).2 h
  rw [paddedDigits, List.length_append, List.length_replicate]
  omega

/-- The digits in front of the point and those behind it make up the coefficient. -/
theorem ofDigitChars_split (coefficient count : Nat) (hcount : 0 < count) :
    Nat.ofDigitChars 10 (Nat.toDigits 10 (coefficient / 10 ^ count) ++
      paddedDigits count (coefficient % 10 ^ count)) 0 = coefficient := by
  have hmod : coefficient % 10 ^ count < 10 ^ count :=
    Nat.mod_lt _ (Nat.pow_pos (by decide))
  rw [Nat.ofDigitChars_append, Nat.ofDigitChars_ten_toDigits,
    Nat.ofDigitChars_eq_ofDigitChars_zero, ofDigitChars_paddedDigits,
    length_paddedDigits hcount hmod]
  exact Nat.div_add_mod _ _

/-- The value of a decimal with digits behind the point. -/
theorem ratio_neg (coefficient : Nat) {count : Nat} (hcount : 0 < count) :
    ratio ⟨coefficient, -(count : Int)⟩ = (coefficient, 10 ^ count) := by
  obtain ⟨n, rfl⟩ : ∃ n, count = n + 1 := ⟨count - 1, by omega⟩
  rfl

/-- Positional notation is read back as a decimal of the same value. -/
theorem ofPositional?_positional (d : Decimal) :
    ∃ d', ofPositional? d.positional = some d' ∧ d'.ratio = d.ratio := by
  obtain ⟨coefficient, exponent⟩ := d
  -- Without a fraction the number is written out; otherwise there are digits behind the point.
  cases exponent with
  | ofNat n =>
    have hread : ofPositional? (Nat.toDigits 10 (coefficient * 10 ^ n)) = _ :=
      ofPositional?_digits Nat.toDigits_ne_nil isDigit_of_mem_toDigits
    refine ⟨_, hread, ?_⟩
    rw [Nat.ofDigitChars_ten_toDigits]
    simp only [ratio, Nat.pow_zero, Nat.mul_one]
  | negSucc n =>
    have hread : ofPositional? (Nat.toDigits 10 (coefficient / 10 ^ (n + 1)) ++
        '.' :: paddedDigits (n + 1) (coefficient % 10 ^ (n + 1))) = _ :=
      ofPositional?_point Nat.toDigits_ne_nil isDigit_of_mem_toDigits isDigit_of_mem_paddedDigits
    have hmod : coefficient % 10 ^ (n + 1) < 10 ^ (n + 1) :=
      Nat.mod_lt _ (Nat.pow_pos (by decide))
    refine ⟨_, hread, ?_⟩
    rw [ofDigitChars_split _ _ (Nat.succ_pos n), length_paddedDigits (Nat.succ_pos n) hmod]
    rfl

end Decimal

/-! ## Rounding -/

/-- A multiple of the divisor is divided without rounding. -/
theorem roundDiv_mul (quotient : Nat) {den : Nat} (hden : 0 < den) :
    roundDiv (quotient * den) den = quotient := by
  simp [roundDiv, Nat.mul_div_cancel _ hden, hden]

namespace Magnitude

/-- A ratio that is a value is rounded to that value. -/
theorem ofRatio?_eq_some {x : Magnitude} {num den : Nat} (hden : 0 < den)
    (h : num * unitsPerOne = x.units * den) : ofRatio? num den = some x := by
  obtain ⟨units, ⟨steps, hsteps⟩, hlimit⟩ := x
  have hgap : 0 < spacing units := Nat.pow_pos (by decide)
  have hunits : unitsOfRatio num den = units := by
    -- The ratio is a multiple of the gap between the values near it.
    have hnum : num * unitsPerOne = steps * (den * spacing units) := by
      rw [h, Nat.mul_comm den, ← Nat.mul_assoc, Nat.mul_comm steps, ← hsteps]
    rw [unitsOfRatio, h, Nat.mul_div_cancel _ hden, ← h, hnum,
      roundDiv_mul _ (Nat.mul_pos hden hgap), Nat.mul_comm, ← hsteps]
  simp only [ofRatio?, hunits, hlimit, ↓reduceDIte]

/-- Decimals of the same ratio are rounded to the same number. -/
theorem ofDecimal?_of_ratio_eq {d d' : Decimal} (h : d'.ratio = d.ratio) :
    ofDecimal? d' = ofDecimal? d := by
  rw [ofDecimal?, ofDecimal?, h]

/-- All digits of a value read back as the value. -/
theorem ofDecimal?_exactDecimal (x : Magnitude) : ofDecimal? x.exactDecimal = some x := by
  -- Units are negative powers of two, so powers of five make decimals of them.
  have hpow : 5 ^ unitExponent * unitsPerOne = 10 ^ unitExponent := by
    rw [unitsPerOne_eq, ← Nat.mul_pow]
  unfold exactDecimal
  rw [ofDecimal?, Decimal.ratio_neg _ unitExponent_pos]
  exact ofRatio?_eq_some (Nat.pow_pos (by decide)) (by rw [Nat.mul_assoc, hpow])

/-- Of two neighbours one is only taken if it reads back. -/
theorem reads_of_nearer? {tie : Tie} {reads : Decimal → Bool} {below above d : Decimal}
    {twice step : Nat} (h : Decimal.nearer? tie reads below above twice step = some d) :
    reads d := by
  unfold Decimal.nearer? at h
  grind

/-- The shortest decimal reads back. -/
theorem ofDecimal?_shortest (tie : Tie) (x : Magnitude) :
    ofDecimal? (x.shortest tie) = some x := by
  unfold shortest
  dsimp only
  -- Either some number of digits is enough or all digits are written.
  rcases hfind : (List.range 17).findSome? _ with _ | d
  · exact ofDecimal?_exactDecimal x
  · obtain ⟨i, -, hneighbour⟩ := List.exists_of_findSome?_eq_some hfind
    exact eq_of_beq (reads_of_nearer? hneighbour)

/-- The value is its whole part, if that is all there is. -/
theorem wholePart_mul_unitsPerOne {x : Magnitude} (h : x.isIntegral) :
    x.wholePart * unitsPerOne = x.units :=
  Nat.div_mul_cancel (Nat.dvd_of_mod_eq_zero (eq_of_beq h))

/-- Zero is a natural number of few digits. -/
theorem isIntegral_of_isZero {x : Magnitude} (h : x.isZero) :
    x.isIntegral ∧ x.wholePart = 0 := by
  have hunits : x.units = 0 := eq_of_beq h
  rw [isIntegral, wholePart, hunits, Nat.zero_mod, Nat.zero_div]
  exact ⟨rfl, rfl⟩

/-- A decimal without a fraction is rounded as a natural number. -/
theorem ofDecimal?_natural (n : Nat) : ofDecimal? ⟨n, 0⟩ = ofNat? n := by
  have hratio : Decimal.ratio ⟨n, 0⟩ = (n * 10 ^ 0, 1) := rfl
  rw [ofDecimal?, hratio, Nat.pow_zero, Nat.mul_one, ofNat?]

/-- A value that is a natural number is the value nearest to that number. -/
theorem ofNat?_eq_some {x : Magnitude} {n : Nat} (h : x.units = n * unitsPerOne) :
    ofNat? n = some x :=
  ofRatio?_eq_some Nat.one_pos (by rw [h, Nat.mul_one])

/-- One is a value. -/
theorem representable_unitsPerOne : Representable unitsPerOne := by
  -- A power of two is a multiple of the spacing of the values next to it.
  have hdvd := spacing_dvd_mul_two_pow (m := 1) unitExponent Nat.one_le_two_pow
  rw [Nat.one_mul, ← unitsPerOne_eq] at hdvd
  exact ⟨hdvd, unitsPerOne_lt_unitsLimit⟩

/-- One. -/
def one : Magnitude :=
  ⟨unitsPerOne, representable_unitsPerOne⟩

theorem ofNat?_one : ofNat? 1 = some one :=
  ofNat?_eq_some (Nat.one_mul _).symm

end Magnitude

/-! ## Numbers in formulas -/

namespace Binary64

/-- What formulas do not write as an integer is not zero. -/
theorem isZero_eq_false_of_not_integer {x : Magnitude}
    (h : ¬(x.isIntegral && decide (x.wholePart < 10 ^ integerDigits))) : x.isZero = false := by
  rw [Bool.eq_false_iff]
  intro hzero
  obtain ⟨hintegral, hwhole⟩ := Magnitude.isIntegral_of_isZero hzero
  rw [hintegral, hwhole, Bool.true_and, decide_eq_true_iff] at h
  exact h (Nat.pow_pos (by decide))

/-- Integers up to a limit are written with all their digits. -/
theorem formulaText_of_integer (negative : Bool) {x : Magnitude}
    (h : x.isIntegral && decide (x.wholePart < 10 ^ integerDigits)) :
    (finite negative x).formulaText =
      (if negative && !x.isZero then ['-'] else []) ++ Nat.toDigits 10 x.wholePart :=
  if_pos h

/-- Other numbers are written as they are displayed. -/
theorem formulaText_of_not_integer (negative : Bool) {x : Magnitude}
    (h : ¬(x.isIntegral && decide (x.wholePart < 10 ^ integerDigits))) :
    (finite negative x).formulaText = (finite negative x).display :=
  if_neg h

theorem sign_append (negative : Bool) (digits : List Char) :
    (if negative then '-' :: digits else digits) = (if negative then ['-'] else []) ++ digits := by
  cases negative <;> rfl

/-- Other than zero, numbers are displayed as their sign and the shortest decimal. -/
theorem display_of_isZero_eq_false (negative : Bool) {x : Magnitude} (h : x.isZero = false) :
    (finite negative x).display =
      (if negative then ['-'] else []) ++ (x.shortest .up).positional := by
  have hdisplay : (finite negative x).display =
      if negative then '-' :: (if x.isZero then ['0'] else (x.shortest .up).positional)
      else if x.isZero then ['0'] else (x.shortest .up).positional := rfl
  rw [hdisplay, h]
  simp only [Bool.false_eq_true, ↓reduceIte]
  exact sign_append negative _

/-- The text of a negative number is a minus sign before the text of its absolute value; zero has
no sign. -/
theorem formulaText_finite (negative : Bool) (x : Magnitude) :
    (finite negative x).formulaText =
      (if negative && !x.isZero then ['-'] else []) ++ (finite false x).formulaText := by
  by_cases h : x.isIntegral && decide (x.wholePart < 10 ^ integerDigits)
  · rw [formulaText_of_integer negative h, formulaText_of_integer false h, Bool.false_and,
      if_neg Bool.false_ne_true, List.nil_append]
  · -- Only zero is written without its sign, and zero is an integer.
    have hzero := isZero_eq_false_of_not_integer h
    rw [formulaText_of_not_integer negative h, formulaText_of_not_integer false h,
      display_of_isZero_eq_false negative hzero, display_of_isZero_eq_false false hzero, hzero,
      Bool.not_false, Bool.and_true, if_neg Bool.false_ne_true, List.nil_append]

/-- The text of a number that is not negative is read back as that number. -/
theorem ofDecimal_formulaText (x : Magnitude) :
    ∃ d, Decimal.ofPositional? (finite false x).formulaText = some d ∧
      ofDecimal false d = finite false x := by
  suffices h : ∃ d, Decimal.ofPositional? (finite false x).formulaText = some d ∧
      Magnitude.ofDecimal? d = some x by
    obtain ⟨d, htext, hvalue⟩ := h
    exact ⟨d, htext, by rw [ofDecimal, hvalue, ofMagnitude?]⟩
  by_cases h : x.isIntegral && decide (x.wholePart < 10 ^ integerDigits)
  · -- An integer is its whole part, and is read back without rounding.
    have hunits := Magnitude.wholePart_mul_unitsPerOne (Bool.and_eq_true_iff.1 h).1
    have hread : Decimal.ofPositional? (Nat.toDigits 10 x.wholePart) = _ :=
      Decimal.ofPositional?_digits Nat.toDigits_ne_nil Decimal.isDigit_of_mem_toDigits
    rw [Nat.ofDigitChars_ten_toDigits] at hread
    rw [formulaText_of_integer false h, Bool.false_and, if_neg Bool.false_ne_true, List.nil_append]
    refine ⟨_, hread, ?_⟩
    rw [Magnitude.ofDecimal?_natural]
    exact Magnitude.ofNat?_eq_some hunits.symm
  · have hzero := isZero_eq_false_of_not_integer h
    -- Any other number is written as the shortest decimal that reads back.
    obtain ⟨d, hread, hratio⟩ := Decimal.ofPositional?_positional (x.shortest .up)
    rw [formulaText_of_not_integer false h, display_of_isZero_eq_false false hzero,
      if_neg Bool.false_ne_true, List.nil_append]
    refine ⟨d, hread, ?_⟩
    rw [Magnitude.ofDecimal?_of_ratio_eq hratio, Magnitude.ofDecimal?_shortest]

/-- Minus one is one with a minus sign. -/
theorem ofInt_neg_one : ofInt (-1) = finite true .one := by
  change ofMagnitude? true (Magnitude.ofNat? 1) = _
  rw [Magnitude.ofNat?_one]
  rfl

/-- Minus one is found to be minus one. -/
theorem isMinusOne_ofInt : (ofInt (-1)).isMinusOne := by
  rw [isMinusOne, ofInt_neg_one, equals, beq_self_eq_true, beq_self_eq_true]
  rfl

/-- A number that equals minus one is minus one. -/
theorem eq_of_isMinusOne {x : Binary64} (h : x.isMinusOne) : x = ofInt (-1) := by
  rw [isMinusOne, ofInt_neg_one] at h
  rw [ofInt_neg_one]
  cases x with
  | nan => cases h
  | infinity negative => cases h
  | finite negative x =>
    obtain ⟨hx, hsign⟩ := Bool.and_eq_true_iff.1 h
    have hunits : x.units = unitsPerOne := eq_of_beq hx
    -- The two zeros are equal although their signs differ, but one is not zero.
    have hnonzero : x.isZero = false := by
      rw [Magnitude.isZero, hunits]
      exact beq_eq_false_iff_ne.2 (Nat.ne_of_gt unitsPerOne_pos)
    rw [hnonzero, Bool.or_false] at hsign
    obtain rfl : negative = true := eq_of_beq hsign
    obtain ⟨units, hrepresentable⟩ := x
    obtain rfl : units = unitsPerOne := hunits
    rw [Magnitude.one]

end Binary64

end MetricFormula
