import MetricFormula.Number.Decimal

/-!
# Binary64 numbers

The 64-bit binary floating-point numbers of IEEE 754, represented exactly. A finite value is a
sign and a natural number of *units* of `2 ^ -1074`, the smallest positive value. Conversion from
a ratio rounds to the nearest value and breaks ties toward the even neighbour.
-/

namespace MetricFormula

/-- The quotient of `num` by `den`, rounded to the nearest integer; a half goes to the even one. -/
def roundDiv (num den : Nat) : Nat :=
  let quotient := num / den
  let twice := 2 * (num % den)
  if twice < den then quotient
  else if den < twice then quotient + 1
  else if quotient % 2 = 0 then quotient
  else quotient + 1

theorem roundDiv_le_succ (num den : Nat) : roundDiv num den ≤ num / den + 1 := by
  unfold roundDiv
  grind

/-- The number of significant binary digits that values have. -/
def precision : Nat := 53

/-- One is `2 ^ unitExponent` units. -/
def unitExponent : Nat := 1074

/-- Values overflow from `2 ^ overflowExponent` units on. -/
def overflowExponent : Nat := 2098

/-- How many units make one. -/
def unitsPerOne : Nat :=
  2 ^ unitExponent

/-- The number of units from which on values overflow. -/
def unitsLimit : Nat :=
  2 ^ overflowExponent

theorem unitsLimit_pos : 0 < unitsLimit := by
  unfold unitsLimit
  apply Nat.pow_pos
  decide

/-- The distance, in units, between neighbouring values of the size of `n` units. -/
def spacing (n : Nat) : Nat :=
  2 ^ (n.log2 + 1 - precision)

/-- A finite value has `n` units: `n` is a multiple of the spacing at its size, and below the
overflow threshold. -/
def Representable (n : Nat) : Prop :=
  spacing n ∣ n ∧ n < unitsLimit

instance (n : Nat) : Decidable (Representable n) :=
  inferInstanceAs (Decidable (_ ∧ _))

/-- Up to `2 ^ precision` steps of a power of two are on the grid of their size. -/
theorem spacing_dvd_mul_two_pow {m : Nat} (k : Nat) (hm : m ≤ 2 ^ precision) :
    spacing (m * 2 ^ k) ∣ m * 2 ^ k := by
  unfold spacing
  by_cases hfull : m = 2 ^ precision
  · rw [hfull, ← Nat.pow_add, Nat.log2_two_pow]
    exact Nat.pow_dvd_pow 2 (by unfold precision; omega)
  · by_cases hzero : m * 2 ^ k = 0
    · simp [hzero]
    · have hlt : m * 2 ^ k < 2 ^ (precision + k) := by
        rw [Nat.pow_add]
        exact Nat.mul_lt_mul_of_pos_right (by omega) (Nat.two_pow_pos k)
      have hlog := (Nat.log2_lt hzero).2 hlt
      exact Nat.dvd_trans (Nat.pow_dvd_pow 2 (by omega)) (Nat.dvd_mul_left _ _)

/-- The absolute value of a finite binary64 number. -/
structure Magnitude where
  /-- How many units the value has. -/
  units : Nat
  /-- The value is on the grid of its size and does not overflow. -/
  representable : Representable units
deriving DecidableEq

namespace Magnitude

/-- Units of the ratio `num / den`, rounded to the grid of its size. -/
def unitsOfRatio (num den : Nat) : Nat :=
  let scaled := num * unitsPerOne
  let gap := spacing (scaled / den)
  roundDiv scaled (den * gap) * gap

/-- Rounding to the grid of a size takes at most `2 ^ precision` steps. -/
theorem roundDiv_spacing_le (scaled den : Nat) :
    roundDiv scaled (den * spacing (scaled / den)) ≤ 2 ^ precision := by
  refine Nat.le_trans (roundDiv_le_succ _ _) ?_
  rw [← Nat.div_div_eq_div_mul]
  refine Nat.div_lt_of_lt_mul ?_
  generalize scaled / den = quotient
  have hquotient : quotient < 2 ^ (quotient.log2 + 1) := Nat.lt_log2_self
  unfold spacing
  rw [← Nat.pow_add]
  exact Nat.lt_of_lt_of_le hquotient (Nat.pow_le_pow_right (by omega) (by omega))

/-- Rounding a ratio lands on the grid. -/
theorem spacing_dvd_unitsOfRatio (num den : Nat) :
    spacing (unitsOfRatio num den) ∣ unitsOfRatio num den := by
  unfold unitsOfRatio
  exact spacing_dvd_mul_two_pow _ (roundDiv_spacing_le _ _)

/-- The value nearest to the ratio `num / den`, or nothing if that overflows. -/
def ofRatio? (num den : Nat) : Option Magnitude :=
  if h : unitsOfRatio num den < unitsLimit then
    some ⟨unitsOfRatio num den, spacing_dvd_unitsOfRatio num den, h⟩
  else none

/-- The value nearest to a decimal number, or nothing if that overflows. -/
def ofDecimal? (d : Decimal) : Option Magnitude :=
  ofRatio? d.ratio.1 d.ratio.2

/-- The value nearest to a natural number, or nothing if that overflows. -/
def ofNat? (n : Nat) : Option Magnitude :=
  ofRatio? n 1

/-- Zero. -/
def zero : Magnitude :=
  ⟨0, Nat.dvd_zero _, unitsLimit_pos⟩

/-- The value is zero. -/
def isZero (x : Magnitude) : Bool :=
  x.units == 0

/-- The value is a natural number. -/
def isIntegral (x : Magnitude) : Bool :=
  x.units % unitsPerOne == 0

/-- The largest natural number that is not above the value. -/
def wholePart (x : Magnitude) : Nat :=
  x.units / unitsPerOne

/-- The product, rounded, or nothing if it overflows. -/
def mul? (x y : Magnitude) : Option Magnitude :=
  ofRatio? (x.units * y.units) (unitsPerOne * unitsPerOne)

/-- The quotient, rounded, or nothing if it overflows. -/
def div? (x y : Magnitude) : Option Magnitude :=
  ofRatio? x.units y.units

/-- The value in decimal, to the last digit. -/
def exactDecimal (x : Magnitude) : Decimal :=
  ⟨x.units * 5 ^ unitExponent, -unitExponent⟩

end Magnitude

/-- A binary64 number. -/
inductive Binary64
  /-- Not a number. -/
  | nan
  /-- An infinity. -/
  | infinity (negative : Bool)
  /-- A sign and an absolute value; zero has both signs. -/
  | finite (negative : Bool) (magnitude : Magnitude)
deriving DecidableEq

namespace Binary64

/-- The given sign with an absolute value; nothing stands for overflow, which gives infinity. -/
def ofMagnitude? (negative : Bool) : Option Magnitude → Binary64
  | some magnitude => finite negative magnitude
  | none => infinity negative

/-- The number nearest to a decimal. -/
def ofDecimal (negative : Bool) (d : Decimal) : Binary64 :=
  ofMagnitude? negative (Magnitude.ofDecimal? d)

/-- The number nearest to an integer. -/
def ofInt (n : Int) : Binary64 :=
  ofMagnitude? (decide (n < 0)) (Magnitude.ofNat? n.natAbs)

/-- Neither infinite nor NaN. -/
def isFinite : Binary64 → Bool
  | finite _ _ => true
  | _ => false

/-- Equality of numbers: the two zeros are equal, and NaN differs from everything. -/
def equals : Binary64 → Binary64 → Bool
  | infinity s, infinity t => s == t
  | finite s x, finite t y => x.units == y.units && (s == t || x.isZero)
  | _, _ => false

/-- The number is minus one. -/
def isMinusOne (x : Binary64) : Bool :=
  x.equals (ofInt (-1))

end Binary64

end MetricFormula
