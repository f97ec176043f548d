import MetricFormula.Number.Binary64

/-!
# Arithmetic expressions

The tree of an arithmetic text as it is written, before any metric is looked up: numbers, names,
calls, applied operators and parentheses.
-/

namespace MetricFormula

/-- The four operations of arithmetic. -/
inductive Arithmetic
  /-- Addition. -/
  | add
  /-- Subtraction. -/
  | subtract
  /-- Multiplication. -/
  | multiply
  /-- Division. -/
  | divide
deriving DecidableEq, Repr

namespace Arithmetic

/-- All four operations. -/
def all : List Arithmetic :=
  [add, subtract, multiply, divide]

/-- The name of the operation, as a function of two arguments and as the key of its JSON form. -/
def name : Arithmetic → String
  | add => "add"
  | subtract => "subtract"
  | multiply => "multiply"
  | divide => "divide"

/-- The sign that stands between the operands. -/
def sign : Arithmetic → Char
  | add => '+'
  | subtract => '-'
  | multiply => '*'
  | divide => '/'

/-- How tightly the operation binds. -/
def precedence : Arithmetic → Nat
  | add | subtract => 1
  | multiply | divide => 2

/-- The operation of the given name. -/
def ofName? (name : String) : Option Arithmetic :=
  all.find? (·.name == name)

end Arithmetic

/-- The operators of arithmetic texts. -/
inductive Operator
  /-- An operation between two operands. -/
  | binary (operation : Arithmetic)
  /-- The minus sign before one operand. -/
  | negate
deriving DecidableEq, Repr

namespace Operator

/-- The name of the operator. -/
def name : Operator → String
  | binary operation => operation.name
  | negate => "unaryMinus"

end Operator

/-- The tree of an arithmetic text. -/
inductive Expression
  /-- A number. -/
  | number (value : Binary64)
  /-- A name alone, which refers to a metric. -/
  | name (id : String)
  /-- A function applied to arguments. -/
  | call (function : String) (arguments : List Expression)
  /-- An operator applied to operands. -/
  | operation (operator : Operator) (operands : List Expression)
  /-- An expression in parentheses. -/
  | parenthesized (inner : Expression)

namespace Expression

mutual

/-- The expression and everything inside it, parents before children, from left to right. -/
def walk : Expression → List Expression
  | .number value => [.number value]
  | .name id => [.name id]
  | .call function arguments => .call function arguments :: walkAll arguments
  | .operation operator operands => .operation operator operands :: walkAll operands
  | .parenthesized inner => .parenthesized inner :: inner.walk

/-- What `walk` visits in a list of expressions. -/
def walkAll : List Expression → List Expression
  | [] => []
  | e :: es => e.walk ++ walkAll es

end

/-- The name, if the expression is a name alone. -/
def name? : Expression → Option String
  | .name id => some id
  | _ => none

/-- The names that stand alone, in order; the names of called functions are not among them. -/
def names (e : Expression) : List String :=
  e.walk.filterMap name?

end Expression

end MetricFormula
