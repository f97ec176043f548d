import MetricFormula.Calculation.Text
import MetricFormula.Editing.Operation
import MetricFormula.Text.Identifier

/-!
# Editing formulas

An editor holds the text of a formula, a cursor, and the metric tokens of the text. A metric token
is one unit: nothing is typed inside it, and a deletion at one of its ends removes all of it. A
refused edit changes nothing.
-/

namespace MetricFormula

/-- The choices that a host makes for its editor. -/
structure EditorOptions where
  /-- Put a blank around inserted tokens where none stands. -/
  padTokens : Bool := true
  /-- Refuse an operator next to another operator. -/
  rejectAdjacentOperators : Bool := true
  /-- Let the decimal point be typed. -/
  allowDecimalPoint : Bool := true
deriving DecidableEq, Repr

/-- The state of an editor. -/
structure Editor where
  /-- The text of the formula. -/
  text : List Char
  /-- The position of the cursor. -/
  cursor : Nat
  /-- The metric tokens of the text. -/
  tokens : List MetricToken
  /-- The choices of the host. -/
  options : EditorOptions
deriving DecidableEq, Repr

/-- `c` is a sign of an operation or the decimal point. -/
def isOperatorChar (c : Char) : Bool :=
  c == '+' || c == '-' || c == '*' || c == '/' || c == '.'

namespace EditorOptions

/-- `c` may be typed. -/
def allows (options : EditorOptions) (c : Char) : Bool :=
  if c = '.' then options.allowDecimalPoint
  else c.isDigit || isOperatorChar c || c == '(' || c == ')' || c == ' '

end EditorOptions

/-- The character before a position. -/
def charBefore? (text : List Char) : Nat → Option Char
  | 0 => none
  | position + 1 => text[position]?

/-- The text with `inserted` put in at a position. -/
def insertAt (text : List Char) (position : Nat) (inserted : List Char) : List Char :=
  text.take position ++ inserted ++ text.drop position

namespace Editor

/-- An editor without text. -/
def empty (options : EditorOptions) : Editor :=
  ⟨[], 0, [], options⟩

/-- Replace the whole text; the cursor goes to the end. -/
def setText (editor : Editor) (text : List Char) : Editor :=
  { editor with text, cursor := text.length, tokens := MetricToken.scan text }

/-- An editor of an existing text, with the cursor at the end. -/
def ofText (text : List Char) (options : EditorOptions) : Editor :=
  (empty options).setText text

/-- The number of characters of the text. -/
def length (editor : Editor) : Nat :=
  editor.text.length

/-- The editor with another text and cursor. -/
def withText (editor : Editor) (text : List Char) (cursor : Nat) : Editor :=
  { editor with text, cursor, tokens := MetricToken.scan text }

/-- A position is neither past the end nor inside a token. -/
def canInsertAt (editor : Editor) (position : Nat) : Bool :=
  decide (position ≤ editor.length) &&
    (MetricToken.containing? editor.tokens position).isNone

/-- Refuse a position past the end or inside a token. -/
def checkPosition (editor : Editor) (position : Nat) : Except Refusal Unit :=
  if editor.length < position then .error .outOfBounds
  else if (MetricToken.containing? editor.tokens position).isSome then .error .insideToken
  else .ok ()

/-- A character stands next to a position that is an operator. -/
def hasOperatorAt (editor : Editor) (position : Nat) : Bool :=
  (charBefore? editor.text position).any isOperatorChar ||
    editor.text[position]?.any isOperatorChar

/-- Type a character at a position. -/
def insertChar (editor : Editor) (position : Nat) (c : Char) : Except Refusal Editor := do
  editor.checkPosition position
  if !editor.options.allows c then throw .disallowedCharacter
  if editor.options.rejectAdjacentOperators && isOperatorChar c &&
      editor.hasOperatorAt position then
    throw .adjacentOperator
  return editor.withText (insertAt editor.text position [c]) (position + 1)

/-- Remove the characters from a position on up to another position, where the cursor goes to the
first one. -/
def remove (editor : Editor) (first last : Nat) : Editor :=
  editor.withText (editor.text.take first ++ editor.text.drop last) first

/-- Delete the character or the token before a position. -/
def deleteBackward (editor : Editor) (position : Nat) : Except Refusal Editor :=
  if editor.length < position then .error .outOfBounds
  else if position = 0 then .error .nothingToDelete
  else match MetricToken.endingAt? editor.tokens position with
    | some token => .ok (editor.remove token.opening token.after)
    | none =>
      if (MetricToken.containing? editor.tokens position).isSome then .error .insideToken
      else .ok (editor.remove (position - 1) position)

/-- Delete the character or the token after a position. -/
def deleteForward (editor : Editor) (position : Nat) : Except Refusal Editor := do
  editor.checkPosition position
  if position = editor.length then throw .nothingToDelete
  match MetricToken.startingAt? editor.tokens position with
  | some token => return editor.remove position token.after
  | none => return editor.remove position (position + 1)

/-- The blank to put before a token at a position. -/
def paddingBefore (editor : Editor) (position : Nat) : List Char :=
  if editor.options.padTokens && (charBefore? editor.text position).any (!Text.isBlank ·) then [' ']
  else []

/-- The blank to put after a token at a position. -/
def paddingAfter (editor : Editor) (position : Nat) : List Char :=
  if editor.options.padTokens && !editor.text[position]?.any Text.isBlank then [' '] else []

/-- Insert a token with the given content at a position, unless it would not be a token there. -/
def insertToken (editor : Editor) (position : Nat) (content : List Char) :
    Except Refusal Editor := do
  editor.checkPosition position
  let before := editor.paddingBefore position
  let inserted := before ++ tokenText content ++ editor.paddingAfter position
  let opening := position + before.length
  let token : MetricToken := ⟨opening, opening + content.length + 3⟩
  let edited :=
    editor.withText (insertAt editor.text position inserted) (position + inserted.length)
  if edited.tokens.contains token then return edited else throw .unclosedToken

/-- What a token says for a metric or an aggregate of it. -/
def tokenContent (id : String) : Option Aggregate → List Char
  | some kind => kind.call id
  | none => id.toList

/-- Insert the token of a metric, or of an aggregate of it, at a position. -/
def insertMetric (editor : Editor) (position : Nat) (id : String) (aggregate : Option Aggregate) :
    Except Refusal Editor :=
  if Text.isIdentifier id.toList then editor.insertToken position (tokenContent id aggregate)
  else .error .invalidMetricId

/-- Delete everything. -/
def clear (editor : Editor) : Editor :=
  { editor with text := [], cursor := 0, tokens := [] }

/-- The position outside tokens that is nearest to a position, the start of a token on a tie. -/
def snap (tokens : List MetricToken) (position : Nat) : Nat :=
  match MetricToken.containing? tokens position with
  | some token =>
    if position - token.opening ≤ token.after - position then token.opening else token.after
  | none => position

/-- Place the cursor, at the end if the position is past it and at an end of a token if it is inside
of one. -/
def setCursor (editor : Editor) (position : Nat) : Editor :=
  { editor with cursor := snap editor.tokens (min position editor.length) }

/-- Move the cursor before the character or the token on its left. -/
def moveLeft (editor : Editor) : Editor :=
  if editor.cursor = 0 then editor
  else match MetricToken.endingAt? editor.tokens editor.cursor with
    | some token => { editor with cursor := token.opening }
    | none => { editor with cursor := editor.cursor - 1 }

/-- Move the cursor behind the character or the token on its right. -/
def moveRight (editor : Editor) : Editor :=
  if editor.length ≤ editor.cursor then editor
  else match MetricToken.startingAt? editor.tokens editor.cursor with
    | some token => { editor with cursor := token.after }
    | none => { editor with cursor := editor.cursor + 1 }

/-- Carry out an edit, or say why it is refused. -/
def run (editor : Editor) : Edit → Except Refusal Editor
  | .insertChar position c => editor.insertChar (position.getD editor.cursor) c
  | .deleteBackward position => editor.deleteBackward (position.getD editor.cursor)
  | .deleteForward position => editor.deleteForward (position.getD editor.cursor)
  | .insertMetric position id aggregate =>
    editor.insertMetric (position.getD editor.cursor) id aggregate
  | .moveCursor position => .ok (editor.setCursor position)
  | .moveLeft => .ok editor.moveLeft
  | .moveRight => .ok editor.moveRight
  | .clear => .ok editor.clear

/-- Carry out an edit if it is not refused. -/
def apply (editor : Editor) (edit : Edit) : Outcome × Editor :=
  match editor.run edit with
  | .ok edited => (.applied, edited)
  | .error reason => (.refused reason, editor)

end Editor

end MetricFormula
