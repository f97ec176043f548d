import MetricFormula.Expression.Basic

/-!
# Calculations

The tree that an aggregation engine evaluates: constants, metrics, aggregates of metrics, and the
four operations. A placeholder stands where a call has no meaning as a calculation.
-/

namespace MetricFormula

/-- The ways to aggregate the values of a metric. -/
inductive Aggregate
  /-- The sum of the values. -/
  | sum
  /-- The number of values. -/
  | count
  /-- The mean of the values. -/
  | average
deriving DecidableEq, Repr

namespace Aggregate

/-- All ways to aggregate. -/
def all : List Aggregate :=
  [sum, count, average]

/-- The name of the aggregate in JSON. -/
def key : Aggregate → String
  | sum => "sum"
  | count => "count"
  | average => "avg"

/-- The name of the aggregate as a function in formulas. -/
def function : Aggregate → String
  | sum => "Sum"
  | count => "Count"
  | average => "Avg"

/-- The aggregate that a function name stands for. -/
def ofFunction? (name : String) : Option Aggregate :=
  all.find? (·.function == name)

/-- The aggregate of the given name in JSON. -/
def ofKey? (key : String) : Option Aggregate :=
  all.find? (·.key == key)

end Aggregate

/-- A calculation. -/
inductive Calculation
  /-- A constant. -/
  | constant (value : Binary64)
  /-- A metric without an aggregate. -/
  | metric (id : String)
  /-- An aggregate of a metric. -/
  | aggregate (kind : Aggregate) (id : String)
  /-- An operation on two calculations. -/
  | arithmetic (operation : Arithmetic) (left right : Calculation)
  /-- A call that has no meaning. -/
  | placeholder
deriving DecidableEq

namespace Calculation

/-- The ids of the metrics, from left to right, with repetitions. -/
def metricIds : Calculation → List String
  | constant _ => []
  | metric id => [id]
  | aggregate _ id => [id]
  | arithmetic _ left right => left.metricIds ++ right.metricIds
  | placeholder => []

/-- There is a placeholder somewhere. -/
def hasPlaceholder : Calculation → Bool
  | placeholder => true
  | arithmetic _ left right => left.hasPlaceholder || right.hasPlaceholder
  | _ => false

/-- The calculations are the same, with constants compared as numbers. -/
def equals : Calculation → Calculation → Bool
  | constant x, constant y => x.equals y
  | metric id, metric id' => id == id'
  | aggregate kind id, aggregate kind' id' => kind == kind' && id == id'
  | arithmetic op left right, arithmetic op' left' right' =>
    op == op' && left.equals left' && right.equals right'
  | placeholder, placeholder => true
  | _, _ => false

/-- The negation of a calculation: its product with minus one. -/
def negation (operand : Calculation) : Calculation :=
  arithmetic .multiply (constant (.ofInt (-1))) operand

end Calculation

end MetricFormula
