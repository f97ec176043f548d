import MetricFormula.Expression.Parser
import MetricFormula.Formula.MetricToken

/-!
# Parsing formulas

A formula is arithmetic in which metrics stand between braces. Its expression is that of the text
without the braces.
-/

namespace MetricFormula

/-- Why a formula has no expression. -/
inductive ParseError
  /-- There is nothing but blanks and braces. -/
  | empty
  /-- The text without the braces is not arithmetic. -/
  | syntactic (error : SyntaxError)
deriving DecidableEq

namespace ParseError

/-- The message of the error. -/
def message : ParseError → String
  | empty => "empty formula"
  | syntactic error => s!"syntax error: {error.message}"

end ParseError

namespace Formula

/-- The formula without the blanks at its ends and without its braces. -/
def withoutBraces (formula : List Char) : List Char :=
  (Text.trim formula).filter (!isBrace ·)

/-- The expression that a formula writes. -/
def parse (formula : List Char) : Except ParseError Expression :=
  let plain := withoutBraces formula
  if Text.isBlankText plain then .error .empty
  else (Expression.parse plain).mapError .syntactic

end Formula

end MetricFormula
