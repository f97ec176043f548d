import MetricFormula.Json.Number
import MetricFormula.Proofs.Json.Literals
import MetricFormula.Proofs.Number.ReadBack

/-!
# Reading back the numbers of JSON

Integers of up to `2 ^ precision` are written without a fraction and read back without rounding.
Other numbers are written with a fraction or a power of ten and with the shortest digits that stand
for them, but reading rounds twice, so it may give a neighbour of the number instead.

## Main definitions

* `Binary64.IsReadBack`: the number is read back if it is not written as an integer.

## Main results

* `NumberLiteral.hasDigits_of_ofBinary64?`: the fractions that are written consist of digits;
* `NumberLiteral.value?_eq_some_iff`: integers are read back without the sign of zero, and other
  numbers if they are read back at all.
-/

namespace MetricFormula

-- Unfolded, these powers of two are numerals that no unifier should count.
attribute [local irreducible] unitExponent unitsPerOne unitsLimit

namespace Binary64

/-- The number, where zero has no sign. -/
def dropZeroSign : Binary64 → Binary64
  | finite negative x => finite (negative && !x.isZero) x
  | other => other

/-- If the number is written with a fraction or a power of ten, it is what is read. -/
def IsReadBack (value : Binary64) : Prop :=
  ∀ literal, Json.NumberLiteral.ofBinary64? value = some literal → literal.isInteger = false →
    literal.value? = some value

theorem isReadBack_iff {value : Binary64} {literal : Json.NumberLiteral}
    (h : Json.NumberLiteral.ofBinary64? value = some literal) :
    value.IsReadBack ↔ (literal.isInteger = false → literal.value? = some value) := by
  refine ⟨fun hread => hread literal h, fun hread literal' h' => ?_⟩
  rw [h] at h'
  rwa [← Option.some.inj h']

instance decidableIsReadBack (value : Binary64) : Decidable value.IsReadBack :=
  match h : Json.NumberLiteral.ofBinary64? value with
  | some _ => decidable_of_iff _ (isReadBack_iff h).symm
  | none => isTrue fun _ h' => nomatch h.symm.trans h'

end Binary64

namespace Json

/-! ## Writing -/

namespace NumberLiteral

/-- Shortest decimals are written with a fraction or a power of ten. -/
theorem isInteger_ofDecimal (negative : Bool) (d : Decimal) :
    (ofDecimal negative d).isInteger = false := by
  obtain ⟨coefficient, exponent⟩ := d
  unfold ofDecimal
  dsimp only
  split
  next =>
    cases exponent with
    | ofNat n => rfl
    | negSucc n =>
      have hne : paddedDigits (n + 1) (coefficient % 10 ^ (n + 1)) ≠ [] :=
        List.append_ne_nil_of_right_ne_nil _ Nat.toDigits_ne_nil
      simp [isInteger, hne]
  next => simp [isInteger]

theorem hasDigits_ofDecimal (negative : Bool) (d : Decimal) :
    (ofDecimal negative d).HasDigits := by
  obtain ⟨coefficient, exponent⟩ := d
  unfold ofDecimal
  dsimp only
  split
  next =>
    cases exponent with
    | ofNat n => exact List.forall_mem_singleton.2 (by decide)
    | negSucc n => exact Decimal.isDigit_of_mem_paddedDigits
  next => exact fun c hc => Decimal.isDigit_of_mem_toDigits c (List.mem_of_mem_drop hc)

/-- Finite numbers are written, and no others are. -/
theorem ofBinary64?_isSome (value : Binary64) : (ofBinary64? value).isSome = value.isFinite := by
  cases value with
  | finite negative x =>
    rw [ofBinary64?]
    split <;> rfl
  | _ => rfl

theorem hasDigits_of_ofBinary64? {value : Binary64} {literal : NumberLiteral}
    (h : ofBinary64? value = some literal) : literal.HasDigits := by
  cases value with
  | finite negative x =>
    rw [ofBinary64?] at h
    split at h
    next =>
      -- An integer is written without a fraction.
      cases h
      exact List.forall_mem_nil _
    next =>
      cases h
      exact hasDigits_ofDecimal _ _
  | _ => cases h

/-- The sign of zero is not written. -/
theorem ofBinary64?_dropZeroSign (value : Binary64) :
    ofBinary64? value.dropZeroSign = ofBinary64? value := by
  cases value with
  | finite negative x =>
    rw [Binary64.dropZeroSign]
    by_cases hzero : x.isZero
    · obtain ⟨hintegral, hwhole⟩ := Magnitude.isIntegral_of_isZero hzero
      simp [ofBinary64?, hzero, hintegral, hwhole]
    · simp [hzero]
  | _ => rfl

end NumberLiteral

/-! ## Reading -/

theorem le_ofDigitChars (significand : Nat) (digits : List Char) :
    significand ≤ Nat.ofDigitChars 10 digits significand := by
  rw [Nat.ofDigitChars_eq_ofDigitChars_zero]
  exact Nat.le_add_right_of_le (Nat.le_mul_of_pos_left _ (Nat.pow_pos (by decide)))

/-- Digits are all taken if their number fits. -/
theorem takeDigits_eq {significand : Nat} {digits : List Char}
    (h : Nat.ofDigitChars 10 digits significand < UInt64.size) :
    takeDigits significand digits = (Nat.ofDigitChars 10 digits significand, digits.length) := by
  induction digits generalizing significand with
  | nil => rfl
  | cons c digits ih =>
    have hcons : Nat.ofDigitChars 10 (c :: digits) significand =
        Nat.ofDigitChars 10 digits (Nat.ofDigitChars 10 [c] significand) := by
      rw [← Nat.ofDigitChars_append, List.singleton_append]
    rw [hcons] at h ⊢
    -- Further digits only make the number larger, so no digit on the way overflows.
    have hnext : Nat.ofDigitChars 10 [c] significand < UInt64.size :=
      Nat.lt_of_le_of_lt (le_ofDigitChars _ digits) h
    rw [takeDigits]
    simp only [hnext, ↓reduceIte, ih h, List.length_cons]

theorem mul?_one (x : Magnitude) : x.mul? .one = some x := by
  have hpos := Nat.mul_pos unitsPerOne_pos unitsPerOne_pos
  have hone : Magnitude.one.units = unitsPerOne := rfl
  rw [Magnitude.mul?, hone]
  exact Magnitude.ofRatio?_eq_some hpos (Nat.mul_assoc _ _ _)

/-- Scaling by one changes nothing. -/
theorem scaleUp?_zero (x : Magnitude) : scaleUp? x 0 = some x := by
  rw [scaleUp?, if_pos (Nat.zero_le _), Nat.pow_zero, Magnitude.ofNat?_one,
    Option.bind_eq_bind, Option.bind_some, mul?_one]

namespace NumberLiteral

/-- An integer below `2 ^ 64` is rounded once. -/
theorem value?_of_lt_size (negative : Bool) {n : Nat} (h : n < UInt64.size) :
    value? ⟨negative, n, [], none⟩ = (Magnitude.ofNat? n).map (.finite negative) := by
  have hfits : Nat.ofDigitChars 10 (Nat.toDigits 10 n) 0 < UInt64.size := by
    rwa [Nat.ofDigitChars_ten_toDigits]
  have hdigits := takeDigits_eq hfits
  rw [Nat.ofDigitChars_ten_toDigits] at hdigits
  -- No digit is left out, and there is no power of ten to scale by.
  have hpower : (none : Option Int).getD 0 + ((0 : Nat) : Int) - ((0 : Nat) : Int) = .ofNat 0 := rfl
  rw [value?]
  dsimp only
  rw [hdigits]
  dsimp only
  rw [takeDigits]
  dsimp only
  rw [Nat.sub_self, hpower]
  dsimp only
  rcases Magnitude.ofNat? n with _ | x
  · rfl
  · rw [Option.bind_eq_bind, Option.bind_some, scaleUp?_zero]
    rfl

/-- An integer of up to `2 ^ precision` is read without rounding. -/
theorem value?_integer (negative : Bool) {x : Magnitude} (hintegral : x.isIntegral)
    (hwhole : x.wholePart ≤ 2 ^ precision) :
    value? ⟨negative, x.wholePart, [], none⟩ = some (.finite negative x) := by
  have hsize : 2 ^ precision < UInt64.size := by decide
  have hread : Magnitude.ofNat? x.wholePart = some x :=
    Magnitude.ofNat?_eq_some (Magnitude.wholePart_mul_unitsPerOne hintegral).symm
  rw [value?_of_lt_size negative (Nat.lt_of_le_of_lt hwhole hsize), hread, Option.map_some]

/-- What is written for a number is read as the number without the sign of zero, unless it has a
fraction or a power of ten and is not read back. -/
theorem value?_eq_some_iff {value : Binary64} {literal : NumberLiteral}
    (h : ofBinary64? value = some literal) :
    literal.value? = some value.dropZeroSign ↔ value.IsReadBack := by
  rw [Binary64.isReadBack_iff h]
  cases value with
  | finite negative x =>
    rw [ofBinary64?] at h
    split at h
    next hinteger =>
      obtain ⟨hintegral, hwhole⟩ := Bool.and_eq_true_iff.1 hinteger
      rw [← Option.some.inj h]
      exact iff_of_true (value?_integer _ hintegral (of_decide_eq_true hwhole)) nofun
    next hinteger =>
      -- Zero is written as an integer, so the sign that is dropped is not that of zero.
      have hzero : x.isZero = false := by
        rw [Bool.eq_false_iff]
        intro hzero
        obtain ⟨hintegral, hwhole⟩ := Magnitude.isIntegral_of_isZero hzero
        rw [hintegral, hwhole] at hinteger
        exact hinteger rfl
      have hfraction : literal.isInteger = false := by
        rw [← Option.some.inj h]
        exact isInteger_ofDecimal negative _
      rw [Binary64.dropZeroSign, hzero, Bool.not_false, Bool.and_true]
      exact ⟨fun hread _ => hread, fun hread => hread hfraction⟩
  | _ => cases h

/-- A literal that is read at all is read as a finite number. -/
theorem isFinite_of_value? {value : Binary64} {literal : NumberLiteral}
    (h : literal.value? = some value) : value.isFinite := by
  unfold value? at h
  obtain ⟨x, -, h⟩ := Option.bind_eq_some_iff.1 h
  dsimp only at h
  -- Scaling up and scaling down both fail or give the magnitude of the number.
  split at h
  all_goals
    obtain ⟨y, -, h⟩ := Option.bind_eq_some_iff.1 h
    cases h
    rfl

end NumberLiteral

end Json

end MetricFormula
