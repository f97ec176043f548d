import MetricFormula.Calculation.Build
import MetricFormula.Formula.Brackets
import MetricFormula.Formula.Parsing

/-!
# Validating formulas

The rules a formula has to meet before it is submitted, in the order in which they are checked:
there is a formula, its brackets are balanced, it parses, it refers to a metric, and every call in
it has a meaning. A formula that meets them compiles to its calculation.
-/

namespace MetricFormula

/-- The rule that a formula breaks. -/
inductive Violation
  /-- There is no formula. -/
  | required
  /-- Brackets are not balanced. -/
  | missingBrackets
  /-- The formula does not parse. -/
  | notValid
  /-- No metric is referred to. -/
  | noMetric
  /-- A call has no meaning. -/
  | unsupportedFunction (error : BuildError)
deriving DecidableEq, Repr

namespace Violation

/-- The stable name of the rule. -/
def code : Violation → String
  | required => "required"
  | missingBrackets => "missing_brackets"
  | notValid => "not_valid"
  | noMetric => "no_metric"
  | unsupportedFunction _ => "unsupported_function"

/-- The message for the author of the formula. -/
def message : Violation → String
  | required => "Formula is required"
  | missingBrackets => "The formula has missing brackets"
  | notValid => "The formula is not valid"
  | noMetric => "The formula must use at least one metric"
  | unsupportedFunction (.unknownFunction name _) =>
    s!"The formula uses an unsupported function: {name}"
  | unsupportedFunction (.aggregateArgument function) =>
    s!"The formula must pass a single metric to {function}()"

end Violation

namespace Formula

/-- The calculation of a formula that meets all rules, or the first rule that it breaks. -/
def compile (policy : UnknownFunctions) (formula : List Char) : Except Violation Calculation :=
  if Text.isBlankText formula then .error .required
  else if !bracketsBalanced formula then .error .missingBrackets
  else match parse formula with
    | .error _ => .error .notValid
    | .ok expression =>
      if expression.names.isEmpty then .error .noMetric
      else (Calculation.ofExpression policy expression).mapError .unsupportedFunction

/-- Check a formula against all rules. -/
def validate (policy : UnknownFunctions) (formula : List Char) : Except Violation Unit :=
  (compile policy formula).map fun _ => ()

/-- Check the formula of a form in which it may be absent. -/
def validateField (policy : UnknownFunctions) : Option (List Char) → Except Violation Unit
  | some formula => validate policy formula
  | none => .error .required

end Formula

end MetricFormula
