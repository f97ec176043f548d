import MetricFormula.Json.Document
import MetricFormula.Number.Shortest

/-!
# Numbers in JSON

Which number a literal stands for, and which literal a number is written as. Reading keeps as many
leading digits as fit into 64 bits, rounds them, and scales by a power of ten with one more
rounding (two below `10 ^ -308`), so a literal with many digits may read as a neighbour of the
nearest number.
-/

namespace MetricFormula.Json

/-- Append digits to a significand as long as it stays below `2 ^ 64`; the number of digits taken
comes second. -/
def takeDigits (significand : Nat) : List Char → Nat × Nat
  | [] => (significand, 0)
  | c :: digits =>
    let next := Nat.ofDigitChars 10 [c] significand
    if next < UInt64.size then
      let (result, taken) := takeDigits next digits
      (result, taken + 1)
    else (significand, 0)

/-- The largest power of ten that does not overflow is `10 ^ largestPower`. -/
def largestPower : Nat := 308

/-- Multiply by `10 ^ n`; nothing if the power or the product overflows, unless zero is scaled. -/
def scaleUp? (x : Magnitude) (n : Nat) : Option Magnitude :=
  if n ≤ largestPower then do x.mul? (← Magnitude.ofNat? (10 ^ n))
  else if x.isZero then some x
  else none

/-- Divide by `10 ^ n`, by the largest power first if that is not enough; what takes more than two
steps vanishes. -/
def scaleDown? (x : Magnitude) (n : Nat) : Option Magnitude := do
  if n ≤ largestPower then x.div? (← Magnitude.ofNat? (10 ^ n))
  else if n ≤ 2 * largestPower then
    let y ← x.div? (← Magnitude.ofNat? (10 ^ largestPower))
    y.div? (← Magnitude.ofNat? (10 ^ (n - largestPower)))
  else return .zero

namespace NumberLiteral

/-- The number a literal stands for; nothing if it overflows. -/
def value? (n : NumberLiteral) : Option Binary64 := do
  let wholeDigits := Nat.toDigits 10 n.whole
  let (significand, wholeTaken) := takeDigits 0 wholeDigits
  let (significand, fractionTaken) := takeDigits significand n.fraction
  let x ← Magnitude.ofNat? significand
  let dropped := wholeDigits.length - wholeTaken
  match n.exponent.getD 0 + dropped - fractionTaken with
  | .ofNat k => return .finite n.negative (← scaleUp? x k)
  | .negSucc k => return .finite n.negative (← scaleDown? x (k + 1))

/-- The literal of a shortest decimal. Its leading digit stands for units of `10 ^ k`; from
`10 ^ -5` up to below `10 ^ 16` it is written positionally, always with a fraction, and beyond that
with a power of ten. -/
def ofDecimal (negative : Bool) (d : Decimal) : NumberLiteral :=
  let digits := Nat.toDigits 10 d.coefficient
  let k := d.exponent + (digits.length - 1 : Nat)
  if -5 ≤ k ∧ k < 16 then
    match d.exponent with
    | .ofNat n => ⟨negative, d.coefficient * 10 ^ n, ['0'], none⟩
    | .negSucc n =>
      ⟨negative, d.coefficient / 10 ^ (n + 1), paddedDigits (n + 1) (d.coefficient % 10 ^ (n + 1)),
        none⟩
  else ⟨negative, Nat.ofDigitChars 10 (digits.take 1) 0, digits.drop 1, some k⟩

/-- The literal of a finite number: an integer of up to `2 ^ precision` has no fraction and zero no
sign; the other numbers have their shortest digits, where a tie goes to the even last digit. -/
def ofBinary64? : Binary64 → Option NumberLiteral
  | .finite negative x =>
    if x.isIntegral && decide (x.wholePart ≤ 2 ^ precision) then
      some ⟨negative && !x.isZero, x.wholePart, [], none⟩
    else some (ofDecimal negative (x.shortest .even))
  | _ => none

end NumberLiteral

end MetricFormula.Json
