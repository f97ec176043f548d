import MetricFormula.Calculation.Basic

/-!
# Edits

The edits that an editor of formulas carries out, and the reasons for which it refuses one.
-/

namespace MetricFormula

/-- An edit. Where a position may be missing, the cursor stands for it. -/
inductive Edit
  /-- Type a character. -/
  | insertChar (position : Option Nat) (char : Char)
  /-- Delete what stands before a position. -/
  | deleteBackward (position : Option Nat)
  /-- Delete what stands after a position. -/
  | deleteForward (position : Option Nat)
  /-- Insert the token of a metric, or of an aggregate of it. -/
  | insertMetric (position : Option Nat) (id : String) (aggregate : Option Aggregate)
  /-- Place the cursor. -/
  | moveCursor (position : Nat)
  /-- Move the cursor one step to the left. -/
  | moveLeft
  /-- Move the cursor one step to the right. -/
  | moveRight
  /-- Delete everything. -/
  | clear
deriving DecidableEq, Repr

/-- Why an edit is refused. -/
inductive Refusal
  /-- The position is past the end of the formula. -/
  | outOfBounds
  /-- The position is inside a metric token. -/
  | insideToken
  /-- The character cannot be typed. -/
  | disallowedCharacter
  /-- An operator would stand next to another one. -/
  | adjacentOperator
  /-- There is nothing on that side of the position. -/
  | nothingToDelete
  /-- The id is not an identifier. -/
  | invalidMetricId
  /-- A brace that is not closed before the position would swallow the new token. -/
  | unclosedToken
deriving DecidableEq, Repr

namespace Refusal

/-- The stable name of the reason. -/
def code : Refusal → String
  | outOfBounds => "out_of_bounds"
  | insideToken => "inside_token"
  | disallowedCharacter => "disallowed_character"
  | adjacentOperator => "adjacent_operator"
  | nothingToDelete => "nothing_to_delete"
  | invalidMetricId => "invalid_metric_id"
  | unclosedToken => "unclosed_token"

/-- The message of the reason. -/
def message : Refusal → String
  | outOfBounds => "position is outside the formula"
  | insideToken => "position is inside a metric token"
  | disallowedCharacter => "character is not allowed"
  | adjacentOperator => "operator next to another operator"
  | nothingToDelete => "nothing to delete"
  | invalidMetricId => "invalid metric id"
  | unclosedToken => "an unclosed token precedes the position"

end Refusal

/-- What came of an edit. -/
inductive Outcome
  /-- It was carried out. -/
  | applied
  /-- It was refused. -/
  | refused (reason : Refusal)
deriving DecidableEq, Repr

namespace Outcome

/-- The edit was carried out. -/
def isApplied : Outcome → Bool
  | applied => true
  | refused _ => false

end Outcome

end MetricFormula
