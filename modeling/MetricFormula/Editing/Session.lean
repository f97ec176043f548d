import MetricFormula.Calculation.Wire
import MetricFormula.Editing.Editor
import MetricFormula.Formula.Validation

/-!
# Editing sessions

A session keeps the expression and the calculation of the formula in its editor. They are worked
out anew whenever an edit changes the text; while the formula is incomplete they are the reason why
there is none.
-/

namespace MetricFormula

open Json (Document)

/-- An editor together with what its formula means. -/
structure Session where
  /-- The editor. -/
  editor : Editor
  /-- What becomes of calls without meaning. -/
  policy : UnknownFunctions
  /-- The expression of the formula, or why there is none. -/
  parsed : Except ParseError Expression
  /-- The calculation of the expression, if there is one, or why it has none. -/
  built : Option (Except BuildError Calculation)

namespace Session

/-- The calculation of a parsed formula, if it is parsed. -/
def build (policy : UnknownFunctions) :
    Except ParseError Expression → Option (Except BuildError Calculation)
  | .ok expression => some (Calculation.ofExpression policy expression)
  | .error _ => none

/-- The session with an editor, everything else worked out from its text. -/
def ofEditor (editor : Editor) (policy : UnknownFunctions) : Session :=
  let parsed := Formula.parse editor.text
  ⟨editor, policy, parsed, build policy parsed⟩

/-- A session without a formula. -/
def empty (options : EditorOptions) (policy : UnknownFunctions) : Session :=
  ofEditor (.empty options) policy

/-- A session on an existing formula. -/
def ofFormula (formula : List Char) (options : EditorOptions) (policy : UnknownFunctions) :
    Session :=
  ofEditor (.ofText formula options) policy

/-- The text of the formula. -/
def formula (session : Session) : List Char :=
  session.editor.text

/-- Carry out an edit if it is not refused. -/
def apply (session : Session) (edit : Edit) : Outcome × Session :=
  let (outcome, editor) := session.editor.apply edit
  if outcome.isApplied && editor.text != session.editor.text then
    (outcome, ofEditor editor session.policy)
  else (outcome, { session with editor })

/-- The calculation of the formula, if it has one. -/
def calculation? (session : Session) : Option Calculation :=
  match session.built with
  | some (.ok calculation) => some calculation
  | _ => none

/-- Why the formula has no calculation; an empty formula needs no reason. -/
def error? (session : Session) : Option String :=
  match session.parsed, session.built with
  | .error .empty, _ => none
  | .error error, _ => some error.message
  | .ok _, some (.error error) => some error.message
  | .ok _, _ => none

/-- Check the formula against all rules. -/
def validate (session : Session) : Except Violation Unit :=
  Formula.validate session.policy session.formula

end Session

/-- What a session shows after an edit. -/
structure SessionState where
  /-- The text of the formula. -/
  formula : List Char
  /-- The position of the cursor. -/
  cursor : Nat
  /-- The metric tokens of the formula. -/
  tokens : List MetricToken
  /-- What came of the edit. -/
  outcome : Outcome
  /-- The calculation of the formula. -/
  calculation : Option Calculation
  /-- Why the formula has no calculation. -/
  error : Option String

namespace Session

/-- What the session shows after an edit with the given outcome. -/
def state (session : Session) (outcome : Outcome) : SessionState where
  formula := session.formula
  cursor := session.editor.cursor
  tokens := session.editor.tokens
  outcome := outcome
  calculation := session.calculation?
  error := session.error?

end Session

/-- The document of the place of a token. -/
def MetricToken.toDocument (token : MetricToken) : Document :=
  .record [("start", .nat token.opening), ("end", .nat token.closing)]

namespace SessionState

/-- The member that gives the reason of a refusal. -/
def refusalMember : Outcome → List (String × Document)
  | .applied => []
  | .refused reason => [("rejected", .text reason.message)]

/-- The member that gives the calculation. -/
def calculationMember : Option Calculation → Except WireError (List (String × Document))
  | none => .ok []
  | some calculation => do return [("tree", ← calculation.toDocument)]

/-- The document of a state. What is missing is left out. -/
def toDocument (state : SessionState) : Except WireError Document := do
  let calculation ← calculationMember state.calculation
  return .record <|
    [("formula", .text (String.ofList state.formula)),
      ("cursor", .nat state.cursor),
      ("tokens", .array (state.tokens.map MetricToken.toDocument)),
      ("applied", .boolean state.outcome.isApplied)] ++
    refusalMember state.outcome ++ calculation ++
    (state.error.map fun error => ("error", Document.text error)).toList

end SessionState

end MetricFormula
