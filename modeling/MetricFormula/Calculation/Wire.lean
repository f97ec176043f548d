import MetricFormula.Calculation.Basic
import MetricFormula.Json.Reader
import MetricFormula.Json.Record

/-!
# Calculations in JSON

A calculation is an object with one member, whose name says what it is: an aggregate of a metric id,
an operation on two calculations, or a constant. A metric without an aggregate is written as a sum,
so it is read back as one. A placeholder is written as an empty object, which is not read back, and
a constant that is not finite is not written at all.
-/

namespace MetricFormula

open Json (Document NumberLiteral)

/-- Why a calculation cannot be written. -/
inductive WireError
  /-- A constant is infinite or NaN. -/
  | nonFinite (value : Binary64)
deriving DecidableEq

namespace WireError

/-- The message of the error. -/
def message : WireError → String
  | nonFinite value => s!"non-finite constant: {String.ofList value.display}"

end WireError

namespace Calculation

/-- The document of a calculation. -/
def toDocument : Calculation → Except WireError Document
  | constant value =>
    match NumberLiteral.ofBinary64? value with
    | some literal => .ok (.record [("constant", .number literal)])
    | none => .error (.nonFinite value)
  | metric id => .ok (.record [(Aggregate.sum.key, .text id)])
  | aggregate kind id => .ok (.record [(kind.key, .text id)])
  | arithmetic op left right => do
    let left ← left.toDocument
    let right ← right.toDocument
    return .record [(op.name, .array [left, right])]
  | placeholder => .ok (.record [])

/-- The calculation that a document holds, whatever its depth. -/
def ofDocument? : Document → Option Calculation
  | .object [(some key, .string value)] => do
    let kind ← Aggregate.ofKey? key
    return aggregate kind (← value)
  | .object [(some key, .array [left, right])] => do
    let op ← Arithmetic.ofName? key
    return arithmetic op (← ofDocument? left) (← ofDocument? right)
  | .object [(some "constant", .number literal)] => do
    return constant (← literal.value?)
  | _ => none

/-- The calculation of a JSON text whose nesting is within the limit. -/
def ofJson? (text : List Char) : Option Calculation := do
  let document ← Document.parse? text
  if document.depth ≤ Json.depthLimit then ofDocument? document else none

end Calculation

end MetricFormula
