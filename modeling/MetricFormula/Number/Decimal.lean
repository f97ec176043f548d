/-!
# Decimal numbers

Unsigned numbers with finitely many decimal digits, their positional notation (digits with at most
one decimal point and no exponent), and reading that notation back.
-/

namespace MetricFormula

-- Powers of natural numbers are the same terms whichever other instances of powers are in scope.
attribute [scoped instance (2000)] instPowNat

/-- The number `coefficient * 10 ^ exponent`. -/
structure Decimal where
  /-- The digits of the number, as one natural number. -/
  coefficient : Nat
  /-- The power of ten that the coefficient counts. -/
  exponent : Int
deriving DecidableEq, Repr

/-- The digits of `n`, filled up with zeros on the left to at least `width` of them. -/
def paddedDigits (width n : Nat) : List Char :=
  let digits := Nat.toDigits 10 n
  List.replicate (width - digits.length) '0' ++ digits

namespace Decimal

/-- Numerator and denominator of the number. -/
def ratio (d : Decimal) : Nat × Nat :=
  match d.exponent with
  | .ofNat n => (d.coefficient * 10 ^ n, 1)
  | .negSucc n => (d.coefficient, 10 ^ (n + 1))

/-- Positional notation: a decimal point stands before the last `-exponent` digits, if there are
any, and at least one digit stands before the point. -/
def positional (d : Decimal) : List Char :=
  match d.exponent with
  | .ofNat n => Nat.toDigits 10 (d.coefficient * 10 ^ n)
  | .negSucc n =>
    Nat.toDigits 10 (d.coefficient / 10 ^ (n + 1)) ++
      '.' :: paddedDigits (n + 1) (d.coefficient % 10 ^ (n + 1))

/-- Read positional notation: digits with at most one decimal point, which may stand first or last
as long as there is a digit. -/
def ofPositional? (text : List Char) : Option Decimal :=
  let whole := text.takeWhile Char.isDigit
  match text.dropWhile Char.isDigit with
  | [] => if whole.isEmpty then none else some ⟨Nat.ofDigitChars 10 whole 0, 0⟩
  | '.' :: fraction =>
    if fraction.all Char.isDigit && !(whole.isEmpty && fraction.isEmpty) then
      some ⟨Nat.ofDigitChars 10 (whole ++ fraction) 0, -(fraction.length : Int)⟩
    else none
  | _ :: _ => none

end Decimal

end MetricFormula
