import MetricFormula.Proofs.Number.ReadBack

/-!
# Overflow

Rounding a ratio overflows from the middle between the greatest value and the next power of two on:
the middle itself is rounded away from the greatest value, whose last binary digit is a one. A
decimal in positional notation is below that as long as it has at most 308 digits in front of the
point.

## Main definitions

* `overflowThreshold`: the least number that overflows;
* `Magnitude.rounded`: units after rounding;
* `Decimal.Overflows`: the decimal is not below it.

## Main results

* `Magnitude.unitsOfRatio_lt_unitsLimit_iff`: the ratios that do not overflow;
* `Binary64.isFinite_ofDecimal_iff`: the decimals that do not overflow;
* `Decimal.not_overflows_of_ofPositional?`: positional notation with few digits does not.
-/

namespace MetricFormula

/-- The least number that is rounded to infinity: half a step above the greatest value. -/
def overflowThreshold : Nat :=
  (2 ^ (precision + 1) - 1) * 2 ^ (overflowExponent - unitExponent - precision - 1)

/-! ## Rounding -/

theorem le_roundDiv (num den : Nat) : num / den ≤ roundDiv num den := by
  unfold roundDiv
  grind

/-- A quotient is rounded below an even number if it is less than half below it, since a tie goes to
the even number. -/
theorem roundDiv_lt_iff {num den bound : Nat} (hden : 0 < den) (heven : bound % 2 = 0) :
    roundDiv num den < bound ↔ 2 * num + den < 2 * bound * den := by
  have hnum : den * (num / den) + num % den = num := Nat.div_add_mod num den
  have hmod : num % den < den := Nat.mod_lt num hden
  have hlow := le_roundDiv num den
  have hhigh := roundDiv_le_succ num den
  rcases Nat.lt_trichotomy (num / den + 1) bound with hlt | rfl | hgt
  · -- One more step is still below the bound.
    have hmul : den * (num / den + 2) ≤ den * bound := Nat.mul_le_mul_left den hlt
    exact iff_of_true (by omega) (by grind)
  · -- The quotient is odd, so exactly what is less than half above it is rounded down.
    have hodd : num / den % 2 = 1 := by omega
    unfold roundDiv
    grind
  · have hmul : den * bound ≤ den * (num / den) := Nat.mul_le_mul_left den (by omega)
    exact iff_of_false (by omega) (by grind)

theorem two_pow_precision_mod_two : 2 ^ precision % 2 = 0 := by
  decide

namespace Magnitude

/-- A ratio of units, rounded to the grid of its size. -/
def rounded (scaled den : Nat) : Nat :=
  roundDiv scaled (den * spacing (scaled / den)) * spacing (scaled / den)

theorem unitsOfRatio_eq (num den : Nat) :
    unitsOfRatio num den = rounded (num * unitsPerOne) den := rfl

variable {scaled den exponent : Nat}

/-- Rounding to the grid of its size does not take a number below the power of two of that size. -/
theorem two_pow_le_rounded (hquotient : scaled / den ≠ 0) :
    2 ^ (scaled / den).log2 ≤ rounded scaled den := by
  have hsteps := le_roundDiv scaled (den * spacing (scaled / den))
  rw [← Nat.div_div_eq_div_mul] at hsteps
  unfold rounded
  generalize scaled / den = quotient at *
  -- The power of two is itself on the grid.
  have hdvd : spacing quotient ∣ 2 ^ quotient.log2 := Nat.pow_dvd_pow 2 (by unfold precision; omega)
  have hlog : 2 ^ quotient.log2 / spacing quotient ≤ quotient / spacing quotient :=
    Nat.div_le_div_right (Nat.log2_self_le hquotient)
  calc 2 ^ quotient.log2
      = 2 ^ quotient.log2 / spacing quotient * spacing quotient := (Nat.div_mul_cancel hdvd).symm
    _ ≤ _ := Nat.mul_le_mul_right _ (Nat.le_trans hlog hsteps)

/-- A number with fewer binary digits than those next to a power of two stays below that power, and
is more than half of their step below it. -/
theorem rounded_lt_of_log2_lt (hden : 0 < den) (hexponent : 0 < exponent)
    (hlog : (scaled / den).log2 + 1 < precision + exponent) :
    rounded scaled den < 2 ^ precision * 2 ^ exponent ∧
      2 * scaled + den * 2 ^ exponent < 2 * 2 ^ precision * (den * 2 ^ exponent) := by
  have hscaled : den * (scaled / den) + scaled % den = scaled := Nat.div_add_mod scaled den
  have hmod : scaled % den < den := Nat.mod_lt scaled hden
  -- Its own steps are at most half as wide, and rounding takes at most as many of them.
  obtain ⟨lower, rfl⟩ := Nat.exists_eq_succ_of_ne_zero (Nat.ne_of_gt hexponent)
  have hsteps := roundDiv_spacing_le scaled den
  have hspacing : spacing (scaled / den) ≤ 2 ^ lower :=
    Nat.pow_le_pow_right Nat.two_pos (by omega)
  constructor
  · refine Nat.lt_of_le_of_lt (Nat.mul_le_mul hsteps hspacing) ?_
    exact Nat.mul_lt_mul_of_pos_left (Nat.pow_lt_pow_succ Nat.one_lt_two) (Nat.two_pow_pos _)
  · have hquotient : scaled / den < 2 ^ precision * 2 ^ lower := by
      rw [← Nat.pow_add]
      exact Nat.lt_of_lt_of_le Nat.lt_log2_self (Nat.pow_le_pow_right Nat.two_pos (by omega))
    have hmul : den * (scaled / den + 1) ≤ den * (2 ^ precision * 2 ^ lower) :=
      Nat.mul_le_mul_left den hquotient
    have hgap : den * 2 ^ lower ≤ den * (2 ^ precision * 2 ^ lower) :=
      Nat.mul_le_mul_left den (Nat.le_mul_of_pos_left _ (Nat.two_pow_pos precision))
    rw [Nat.pow_succ]
    -- The powers are factors like any others, and no numerals to be computed.
    generalize 2 ^ precision = steps, 2 ^ lower = step at hmul hgap ⊢
    grind

/-- A number with more binary digits than those next to a power of two is not below that power, and
rounding does not take it there. -/
theorem le_rounded_of_lt_log2 (hlog : precision + exponent < (scaled / den).log2 + 1) :
    2 ^ precision * 2 ^ exponent ≤ rounded scaled den ∧
      2 * 2 ^ precision * (den * 2 ^ exponent) ≤ 2 * scaled + den * 2 ^ exponent := by
  have hne : scaled / den ≠ 0 := by
    intro hzero
    rw [hzero, Nat.log2_zero] at hlog
    unfold precision at hlog
    omega
  have hlow : 2 ^ precision * 2 ^ exponent ≤ 2 ^ (scaled / den).log2 := by
    rw [← Nat.pow_add]
    exact Nat.pow_le_pow_right Nat.two_pos (by omega)
  refine ⟨Nat.le_trans hlow (two_pow_le_rounded hne), ?_⟩
  have hscaled : den * (scaled / den) ≤ scaled := Nat.mul_div_le scaled den
  have hmul : den * (2 ^ precision * 2 ^ exponent) ≤ den * (scaled / den) :=
    Nat.mul_le_mul_left den (Nat.le_trans hlow (Nat.log2_self_le hne))
  generalize 2 ^ precision = steps, 2 ^ exponent = step at hmul ⊢
  grind

/-- A number is rounded below a power of two exactly if it is more than half a step below it, where
steps are those of the numbers next to the power. -/
theorem rounded_lt_two_pow_iff (hden : 0 < den) (hexponent : 0 < exponent) :
    rounded scaled den < 2 ^ precision * 2 ^ exponent ↔
      2 * scaled + den * 2 ^ exponent < 2 * 2 ^ precision * (den * 2 ^ exponent) := by
  rcases Nat.lt_trichotomy ((scaled / den).log2 + 1) (precision + exponent) with hlt | heq | hgt
  · obtain ⟨hrounded, hscaled⟩ := rounded_lt_of_log2_lt hden hexponent hlt
    exact iff_of_true hrounded hscaled
  · -- The steps of the number are those next to the power, and an even number of them makes it.
    have hpower := Nat.two_pow_pos exponent
    have hspacing : spacing (scaled / den) = 2 ^ exponent := by
      rw [spacing, heq, Nat.add_sub_cancel_left]
    rw [rounded, hspacing, Nat.mul_lt_mul_right hpower,
      roundDiv_lt_iff (Nat.mul_pos hden hpower) two_pow_precision_mod_two]
  · obtain ⟨hrounded, hscaled⟩ := le_rounded_of_lt_log2 hgt
    exact iff_of_false (Nat.not_lt.2 hrounded) (Nat.not_lt.2 hscaled)

/-- Half a step is taken off the greatest number of steps, in any unit. -/
theorem add_half_step_lt_iff {num units steps step : Nat} (hunits : 0 < units)
    (hsteps : 0 < steps) :
    2 * (num * units) + den * (2 * units * step) < 2 * steps * (den * (2 * units * step)) ↔
      num < (steps * 2 - 1) * step * den := by
  obtain ⟨others, rfl⟩ := Nat.exists_eq_succ_of_ne_zero (Nat.ne_of_gt hsteps)
  have hodd : (others + 1) * 2 - 1 = 2 * others + 1 := by omega
  have hleft : 2 * (num * units) + den * (2 * units * step) = 2 * units * (num + den * step) := by
    grind
  have hright : 2 * (others + 1) * (den * (2 * units * step)) =
      2 * units * (2 * (others + 1) * (den * step)) := by
    grind
  rw [Nat.succ_eq_add_one, hodd, hleft, hright,
    Nat.mul_lt_mul_left (Nat.mul_pos Nat.two_pos hunits)]
  grind

/-- A ratio is rounded to a value exactly if it is below the threshold. -/
theorem unitsOfRatio_lt_unitsLimit_iff {num : Nat} (hden : 0 < den) :
    unitsOfRatio num den < unitsLimit ↔ num < overflowThreshold * den := by
  have hlimit : unitsLimit = 2 ^ precision * 2 ^ (overflowExponent - precision) := by
    rw [← Nat.pow_add, unitsLimit, Nat.add_sub_cancel' (by decide)]
  -- The step next to the limit has two halves, each of which is a number of ones.
  have hstep : 2 ^ (overflowExponent - precision) =
      2 * unitsPerOne * 2 ^ (overflowExponent - unitExponent - precision - 1) := by
    rw [unitsPerOne, ← Nat.pow_succ', ← Nat.pow_add]
    exact congrArg (2 ^ ·) (by decide)
  rw [unitsOfRatio_eq, hlimit, rounded_lt_two_pow_iff hden (by decide), hstep, overflowThreshold,
    Nat.pow_succ]
  exact add_half_step_lt_iff unitsPerOne_pos (Nat.two_pow_pos precision)

/-- Rounding overflows from the threshold on. -/
theorem ofRatio?_eq_none_iff {num : Nat} (hden : 0 < den) :
    ofRatio? num den = none ↔ overflowThreshold * den ≤ num := by
  rw [ofRatio?, ← Nat.not_lt, ← unitsOfRatio_lt_unitsLimit_iff hden]
  split
  next h => exact iff_of_false (Option.some_ne_none _) (not_not_intro h)
  next h => exact iff_of_true rfl h

end Magnitude

/-! ## Decimals -/

namespace Decimal

/-- The decimal is too large for a finite value. -/
def Overflows (d : Decimal) : Prop :=
  overflowThreshold * d.ratio.2 ≤ d.ratio.1

instance (d : Decimal) : Decidable d.Overflows :=
  inferInstanceAs (Decidable (_ ≤ _))

theorem ratio_snd_pos (d : Decimal) : 0 < d.ratio.2 := by
  unfold ratio
  split
  next => exact Nat.one_pos
  next => exact Nat.pow_pos (by decide)

/-- Digits say less than the power of ten of their number. -/
theorem ofDigitChars_lt {digits : List Char} (hdigits : ∀ c ∈ digits, c.isDigit) (n : Nat) :
    Nat.ofDigitChars 10 digits n < (n + 1) * 10 ^ digits.length := by
  induction digits generalizing n with
  | nil => simp [Nat.ofDigitChars]
  | cons c digits ih =>
    obtain ⟨hc, hdigits⟩ := List.forall_mem_cons.1 hdigits
    have hdigit : c.toNat - '0'.toNat ≤ 9 := by
      have hbounds := Char.isDigit_iff_toNat.1 hc
      have hnine : '9'.toNat = '0'.toNat + 9 := rfl
      omega
    rw [Nat.ofDigitChars_cons, List.length_cons, Nat.pow_succ', ← Nat.mul_assoc]
    refine Nat.lt_of_lt_of_le (ih hdigits _) (Nat.mul_le_mul_right _ ?_)
    omega

/-- The ratio of a decimal that is read consists of its digits, those of the fraction divided. -/
theorem exists_ratio_of_ofPositional? {text : List Char} {d : Decimal}
    (h : ofPositional? text = some d) :
    ∃ fraction : List Char, (∀ c ∈ fraction, c.isDigit) ∧
      d.ratio = (Nat.ofDigitChars 10 (text.takeWhile Char.isDigit ++ fraction) 0,
        10 ^ fraction.length) := by
  have hnatural : ∀ n, ratio ⟨n, 0⟩ = (n, 1) := fun n => congrArg (·, 1) (Nat.mul_one n)
  unfold ofPositional? at h
  dsimp only at h
  split at h
  next =>
    split at h
    next => cases h
    next =>
      refine ⟨[], List.forall_mem_nil _, ?_⟩
      rw [← Option.some.inj h, hnatural, List.append_nil]
      rfl
  next fraction _ =>
    split at h
    next hcond =>
      obtain ⟨hfraction, -⟩ := Bool.and_eq_true_iff.1 hcond
      refine ⟨fraction, List.all_eq_true.1 hfraction, ?_⟩
      rw [← Option.some.inj h]
      -- Without digits behind the point the exponent is zero, which the ratio treats apart.
      rcases Nat.eq_zero_or_pos fraction.length with hzero | hpos
      · rw [hzero]
        exact hnatural _
      · exact ratio_neg _ hpos
    next => cases h
  next => cases h

/-- Positional notation with at most 308 digits in front of the point does not overflow. -/
theorem not_overflows_of_ofPositional? {text : List Char} {d : Decimal}
    (h : ofPositional? text = some d) (hlength : (text.takeWhile Char.isDigit).length ≤ 308) :
    ¬d.Overflows := by
  obtain ⟨fraction, hfraction, hratio⟩ := exists_ratio_of_ofPositional? h
  have hwhole : ∀ c ∈ text.takeWhile Char.isDigit, c.isDigit :=
    List.all_eq_true.1 List.all_takeWhile
  have hdigits := ofDigitChars_lt (List.forall_mem_append.2 ⟨hwhole, hfraction⟩) 0
  rw [Nat.zero_add, Nat.one_mul, List.length_append, Nat.pow_add] at hdigits
  have hpower : 10 ^ (text.takeWhile Char.isDigit).length ≤ overflowThreshold := by
    refine Nat.le_trans (Nat.pow_le_pow_right (by decide) hlength) ?_
    decide +kernel
  rw [Overflows, hratio, Nat.not_le]
  exact Nat.lt_of_lt_of_le hdigits (Nat.mul_le_mul_right _ hpower)

end Decimal

namespace Binary64

/-- The decimals that are rounded to infinity are those that are too large. -/
theorem ofDecimal_eq_infinity_iff (negative : Bool) (d : Decimal) :
    ofDecimal negative d = .infinity negative ↔ d.Overflows := by
  rw [Decimal.Overflows, ← Magnitude.ofRatio?_eq_none_iff d.ratio_snd_pos, ofDecimal,
    Magnitude.ofDecimal?]
  rcases Magnitude.ofRatio? d.ratio.1 d.ratio.2 with _ | magnitude <;> simp [ofMagnitude?]

/-- A decimal is rounded to a finite value or to infinity. -/
theorem isFinite_ofDecimal_iff (negative : Bool) (d : Decimal) :
    (ofDecimal negative d).isFinite ↔ ¬d.Overflows := by
  rw [← ofDecimal_eq_infinity_iff negative, ofDecimal]
  rcases Magnitude.ofDecimal? d with _ | magnitude <;> simp [ofMagnitude?, isFinite]

end Binary64

end MetricFormula
