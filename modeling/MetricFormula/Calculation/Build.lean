import MetricFormula.Calculation.Basic

/-!
# From expressions to calculations

A name alone is a metric, an aggregate function of a name is an aggregate, a function of two
arguments named after an operation is that operation, and a minus sign multiplies by minus one.
Whatever else is called has no meaning: it is refused or left open by a placeholder.
-/

namespace MetricFormula

/-- What becomes of calls that have no meaning. -/
inductive UnknownFunctions
  /-- They are errors. -/
  | reject
  /-- They become placeholders. -/
  | placeholder
deriving DecidableEq, Repr

namespace UnknownFunctions

/-- The name of the policy. -/
def name : UnknownFunctions → String
  | reject => "reject"
  | placeholder => "placeholder"

/-- The policy of the given name. -/
def ofName? (name : String) : Option UnknownFunctions :=
  [reject, placeholder].find? (·.name == name)

end UnknownFunctions

/-- Why an expression has no calculation. -/
inductive BuildError
  /-- A function that has no meaning with so many arguments. -/
  | unknownFunction (name : String) (arity : Nat)
  /-- An aggregate of something other than a name alone. -/
  | aggregateArgument (function : String)
deriving DecidableEq, Repr

namespace BuildError

/-- The message of the error. -/
def message : BuildError → String
  | unknownFunction name arity => s!"unsupported function {name} with {arity} argument(s)"
  | aggregateArgument function => s!"{function}() expects a single metric"

end BuildError

namespace Calculation

/-- What stands for a call without meaning. -/
def unmapped (policy : UnknownFunctions) (error : BuildError) : Except BuildError Calculation :=
  match policy with
  | .reject => .error error
  | .placeholder => .ok .placeholder

/-- A function of one argument: an aggregate of a name alone. -/
def ofAggregate (policy : UnknownFunctions) (function : String) (argument : Expression) :
    Except BuildError Calculation :=
  match Aggregate.ofFunction? function with
  | none => unmapped policy (.unknownFunction function 1)
  | some kind =>
    match argument with
    | .name id => .ok (.aggregate kind id)
    | _ => unmapped policy (.aggregateArgument function)

/-- The calculation of an expression. -/
def ofExpression (policy : UnknownFunctions) : Expression → Except BuildError Calculation
  | .number value => .ok (.constant value)
  | .name id => .ok (.metric id)
  | .parenthesized inner => ofExpression policy inner
  | .call function [argument] => ofAggregate policy function argument
  | .call function [left, right] =>
    match Arithmetic.ofName? function with
    | some op => do
      return .arithmetic op (← ofExpression policy left) (← ofExpression policy right)
    | none => unmapped policy (.unknownFunction function 2)
  | .call function arguments => unmapped policy (.unknownFunction function arguments.length)
  | .operation (.binary op) [left, right] => do
    return .arithmetic op (← ofExpression policy left) (← ofExpression policy right)
  | .operation .negate [operand] => do
    return negation (← ofExpression policy operand)
  | .operation operator operands =>
    unmapped policy (.unknownFunction operator.name operands.length)

end Calculation

end MetricFormula
