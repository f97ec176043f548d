import MetricFormula.Editing.Operation
import MetricFormula.Json.Reader
import MetricFormula.Json.Record

/-!
# Edits in JSON

An edit is an object whose member `op` names it, next to its fields in any order, or an array of
that name and the fields in their order. Missing positions and aggregates are left out when an edit
is written.
-/

namespace MetricFormula

open Json (Document)

namespace Aggregate

/-- The aggregate that a document names: its key as a text, or as the only member of an object whose
value is `null` or an empty object. -/
def ofDocument? : Document → Option Aggregate
  | .string (some key) => ofKey? key
  | .object [(some key, .null)] => ofKey? key
  | .object [(some key, .object [])] => ofKey? key
  | _ => none

end Aggregate

namespace Edit

/-- The name of an edit. -/
def name : Edit → String
  | insertChar _ _ => "insert_char"
  | deleteBackward _ => "delete_backward"
  | deleteForward _ => "delete_forward"
  | insertMetric _ _ _ => "insert_metric"
  | moveCursor _ => "move_cursor"
  | moveLeft => "move_left"
  | moveRight => "move_right"
  | clear => "clear"

/-- The names of the fields of the edit of the given name, in order. -/
def fieldsOf? : String → Option (List String)
  | "insert_char" => some ["position", "char"]
  | "delete_backward" => some ["position"]
  | "delete_forward" => some ["position"]
  | "insert_metric" => some ["position", "metric_id", "aggregate"]
  | "move_cursor" => some ["position"]
  | "move_left" => some []
  | "move_right" => some []
  | "clear" => some []
  | _ => none

/-- The edit of the given name with the given field values. -/
def ofFields? : String → List (Option Document) → Option Edit
  | "insert_char", [position, char] => do
    return insertChar (← Document.toOptional? Document.toIndex? position) (← (← char).toChar?)
  | "delete_backward", [position] =>
    (Document.toOptional? Document.toIndex? position).map deleteBackward
  | "delete_forward", [position] =>
    (Document.toOptional? Document.toIndex? position).map deleteForward
  | "insert_metric", [position, id, aggregate] => do
    return insertMetric (← Document.toOptional? Document.toIndex? position) (← (← id).toText?)
      (← Document.toOptional? Aggregate.ofDocument? aggregate)
  | "move_cursor", [position] => do return moveCursor (← (← position).toIndex?)
  | "move_left", [] => some moveLeft
  | "move_right", [] => some moveRight
  | "clear", [] => some clear
  | _, _ => none

/-- The edit that a document describes, whatever its depth. -/
def ofRecord? : Document → Option Edit
  | .object members => do
    let name ← (← (← Document.uniqueValue? members "op")).toText?
    ofFields? name (← Document.fieldsOfMembers? (← fieldsOf? name) members)
  | .array (.string (some name) :: items) => do
    ofFields? name (← Document.fieldsOfItems? (← fieldsOf? name) items)
  | _ => none

/-- The edit that a document describes. All of the document is checked, also members that the edit
does not use. -/
def ofDocument? (document : Document) : Option Edit :=
  if document.isWellFormed && decide (document.depth ≤ Json.depthLimit) then ofRecord? document
  else none

/-- The edit of a JSON text. -/
def ofJson? (text : List Char) : Option Edit := do
  ofDocument? (← Document.parse? text)

/-- The member for a position, if there is one. -/
def positionMember (position : Option Nat) : List (String × Document) :=
  (position.map fun n => ("position", Document.nat n)).toList

/-- The members of the fields of an edit. -/
def members : Edit → List (String × Document)
  | insertChar position char => positionMember position ++ [("char", .text (String.singleton char))]
  | deleteBackward position => positionMember position
  | deleteForward position => positionMember position
  | insertMetric position id aggregate =>
    positionMember position ++ ("metric_id", .text id) ::
      (aggregate.map fun kind => ("aggregate", Document.text kind.key)).toList
  | moveCursor position => [("position", .nat position)]
  | moveLeft | moveRight | clear => []

/-- The document of an edit. -/
def toDocument (edit : Edit) : Document :=
  .record (("op", .text edit.name) :: edit.members)

end Edit

end MetricFormula
