import MetricFormula.Calculation.Basic
import MetricFormula.Formula.MetricToken
import MetricFormula.Number.Shortest

/-!
# Formula text of a calculation

A calculation is written with metrics in braces and with parentheses only where precedence or
grouping to the left calls for them. The product of minus one and an operand is written with a
minus sign before the operand.
-/

namespace MetricFormula

namespace Binary64

/-- The most digits of numbers that formulas write as integers. -/
def integerDigits : Nat := 15

/-- The number in formulas: an integer of up to `integerDigits` digits, where zero has no sign;
other numbers as displayed. -/
def formulaText : Binary64 → List Char
  | finite negative x =>
    if x.isIntegral && decide (x.wholePart < 10 ^ integerDigits) then
      (if negative && !x.isZero then ['-'] else []) ++ Nat.toDigits 10 x.wholePart
    else (finite negative x).display
  | other => other.display

end Binary64

/-- The text of a metric token with the given content. -/
def tokenText (content : List Char) : List Char :=
  openingBrace :: ' ' :: content ++ [' ', closingBrace]

/-- The content of the token of an aggregate: its function applied to the metric. -/
def Aggregate.call (kind : Aggregate) (id : String) : List Char :=
  kind.function.toList ++ '(' :: id.toList ++ [')']

namespace Calculation

/-- The precedence of the outermost operation, if there is one. -/
def precedence? : Calculation → Option Nat
  | arithmetic op _ _ => some op.precedence
  | _ => none

/-- The text in parentheses, if they are needed. -/
def parenthesizeIf (needed : Bool) (text : List Char) : List Char :=
  if needed then '(' :: text ++ [')'] else text

/-- The calculation is the constant minus one. -/
def isMinusOne : Calculation → Bool
  | constant value => value.isMinusOne
  | _ => false

/-- The formula of a calculation. A placeholder has none and is left out. -/
def formula : Calculation → List Char
  | placeholder => []
  | constant value => value.formulaText
  | metric id => tokenText id.toList
  | aggregate kind id => tokenText (kind.call id)
  | arithmetic op left right =>
    if op = .multiply ∧ left.isMinusOne then
      '-' :: parenthesizeIf right.precedence?.isSome right.formula
    else
      parenthesizeIf (left.precedence?.any (· < op.precedence)) left.formula ++
        ' ' :: op.sign :: ' ' ::
        parenthesizeIf (right.precedence?.any (· ≤ op.precedence)) right.formula

end Calculation

end MetricFormula
