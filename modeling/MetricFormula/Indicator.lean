import MetricFormula.Calculation.Wire
import MetricFormula.Formula.Validation

/-!
# Indicators

A named formula with the ids of its owners makes the entity that is stored for an indicator. The
entity holds the calculation and also the text of the formula, so that it can be edited again.
-/

namespace MetricFormula

open Json (Document)

/-- What an author enters for an indicator. -/
structure IndicatorDraft where
  /-- The name. -/
  name : String := ""
  /-- The formula. -/
  formula : String := ""
  /-- Lower values are better. -/
  flip : Bool := false
deriving DecidableEq, Repr

/-- The owners of an indicator. -/
structure IndicatorScope where
  /-- The id of the client. -/
  clientId : String
  /-- The id of the department. -/
  departmentId : String
deriving DecidableEq, Repr

/-- An indicator as it is stored. -/
structure Indicator where
  /-- The name, without blanks at its ends. -/
  name : String
  /-- The calculation of the formula. -/
  calculation : Calculation
  /-- The formula. -/
  formula : String
  /-- The owners. -/
  scope : IndicatorScope
  /-- Lower values are better. -/
  flip : Bool

/-- Why a draft makes no indicator. -/
inductive DraftError
  /-- There is no name. -/
  | nameRequired
  /-- The formula breaks a rule. -/
  | formula (violation : Violation)
deriving DecidableEq, Repr

namespace DraftError

/-- The message of the error. -/
def message : DraftError → String
  | nameRequired => "Indicator name is required"
  | formula violation => violation.message

end DraftError

namespace IndicatorDraft

/-- The indicator of a draft. The name is checked before the formula. -/
def toIndicator (draft : IndicatorDraft) (policy : UnknownFunctions) (scope : IndicatorScope) :
    Except DraftError Indicator := do
  let name := Text.trim draft.name.toList
  if name.isEmpty then throw .nameRequired
  let calculation ← (Formula.compile policy draft.formula.toList).mapError .formula
  return ⟨String.ofList name, calculation, draft.formula, scope, draft.flip⟩

/-- Read a field of a draft; a missing one has its default. -/
def field? {α : Type} (read : Document → Option α) (default : α) : Option Document → Option α
  | none => some default
  | some document => read document

/-- The draft of a record. -/
def ofDocument? (document : Document) : Option IndicatorDraft := do
  match ← document.fields? ["name", "formula", "flip"] with
  | [name, formula, flip] =>
    return ⟨← field? Document.toText? "" name, ← field? Document.toText? "" formula,
      ← field? Document.toBool? false flip⟩
  | _ => none

/-- The document of a draft. -/
def toDocument (draft : IndicatorDraft) : Document :=
  .record [("name", .text draft.name), ("formula", .text draft.formula),
    ("flip", .boolean draft.flip)]

end IndicatorDraft

namespace IndicatorScope

/-- The scope of a record. -/
def ofDocument? (document : Document) : Option IndicatorScope := do
  match ← document.fields? ["clientId", "departmentId"] with
  | [client, department] => return ⟨← (← client).toText?, ← (← department).toText?⟩
  | _ => none

/-- The document of a scope. -/
def toDocument (scope : IndicatorScope) : Document :=
  .record [("clientId", .text scope.clientId), ("departmentId", .text scope.departmentId)]

end IndicatorScope

namespace Indicator

/-- The type of all indicators. -/
def typeName : String :=
  "kpi"

/-- The document of an indicator. The group of an indicator is its department. -/
def toDocument (indicator : Indicator) : Except WireError Document := do
  let expression ← indicator.calculation.toDocument
  let kind := Document.text typeName
  let client := Document.text indicator.scope.clientId
  let department := Document.text indicator.scope.departmentId
  let attributes := Document.record
    [("name", .text indicator.name), ("expression", expression), ("clientId", client),
      ("type", kind), ("departmentId", department), ("groupId", department),
      ("expressionString", .text indicator.formula), ("flip", .boolean indicator.flip)]
  return .record
    [("type", kind), ("departmentId", department), ("groupId", department), ("clientId", client),
      ("attributes", attributes)]

end Indicator

end MetricFormula
