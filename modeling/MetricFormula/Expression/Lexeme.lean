import MetricFormula.Number.Shortest
import MetricFormula.Text.Identifier

/-!
# Lexemes

The words of an arithmetic text: numbers, names, the four signs, parentheses and the comma. Blanks
separate words and are otherwise skipped. A number is a longest run of ASCII digits and points, a
name a longest run of identifier characters.
-/

namespace MetricFormula

/-- A word of an arithmetic text. -/
inductive Lexeme
  /-- A number literal. -/
  | number (value : Binary64)
  /-- A name. -/
  | name (id : String)
  /-- The plus sign. -/
  | plus
  /-- The minus sign. -/
  | minus
  /-- The multiplication sign. -/
  | star
  /-- The division sign. -/
  | slash
  /-- An opening parenthesis. -/
  | opening
  /-- A closing parenthesis. -/
  | closing
  /-- A comma. -/
  | comma
deriving DecidableEq

/-- Why an arithmetic text is refused. -/
inductive SyntaxError
  /-- A run of digits and points that is not a number. -/
  | invalidNumber (text : List Char)
  /-- A character that belongs to no word. -/
  | unexpectedCharacter (c : Char)
  /-- There is no word at all. -/
  | emptyExpression
  /-- There are more words than the limit. -/
  | tooLong (count : Nat)
  /-- Parentheses, calls and signs nest more deeply than the limit. -/
  | tooDeep
  /-- A word that cannot stand at its place, with the number of words before it. -/
  | unexpected (lexeme : Lexeme) (index : Nat)
  /-- The text ends where an operand is due. -/
  | unexpectedEnd
  /-- Another word stands where a parenthesis should be closed. -/
  | expectedClosing (found : Lexeme)
  /-- The text ends inside parentheses. -/
  | missingClosing
  /-- Another word stands after an argument of a call. -/
  | expectedSeparator (found : Lexeme)
  /-- The text ends inside the arguments of a call. -/
  | missingCallClosing
deriving DecidableEq

/-- The most words that an expression may have. -/
def lexemeLimit : Nat := 1024

/-- The deepest nesting of parentheses, calls and signs in an expression. -/
def nestingLimit : Nat := 64

namespace Lexeme

/-- How messages refer to the word. -/
def describe : Lexeme → String
  | number value => "number " ++ String.ofList value.display
  | name id => "identifier " ++ id
  | plus => "'+'"
  | minus => "'-'"
  | star => "'*'"
  | slash => "'/'"
  | opening => "'('"
  | closing => "')'"
  | comma => "','"

end Lexeme

namespace SyntaxError

/-- The message of the error. -/
def message : SyntaxError → String
  | invalidNumber text => s!"Invalid number: {String.ofList text}"
  | unexpectedCharacter c => s!"Unexpected character: {String.singleton c}"
  | emptyExpression => "Empty expression"
  | tooLong count => s!"Expression too long ({count} tokens, max {lexemeLimit})"
  | tooDeep => s!"Expression nested too deeply (max {nestingLimit})"
  | unexpected lexeme index => s!"Unexpected {lexeme.describe} at token {index}"
  | unexpectedEnd => "Unexpected end of expression"
  | expectedClosing found => s!"Expected closing parenthesis, found {found.describe}"
  | missingClosing => "Missing closing parenthesis"
  | expectedSeparator found => s!"Expected comma or closing parenthesis, found {found.describe}"
  | missingCallClosing => "Missing closing parenthesis in function call"

end SyntaxError

namespace Lexeme

/-- The word that a character makes by itself. -/
def ofChar? : Char → Option Lexeme
  | '+' => some plus
  | '-' => some minus
  | '*' => some star
  | '/' => some slash
  | '(' => some opening
  | ')' => some closing
  | ',' => some comma
  | _ => none

/-- `c` may stand in a number. -/
def isNumberPart (c : Char) : Bool :=
  c.isDigit || c == '.'

/-- The word that is being read, its characters in reverse. -/
inductive Pending
  /-- None. -/
  | nothing
  /-- A number. -/
  | number (reversed : List Char)
  /-- A name. -/
  | name (reversed : List Char)
deriving DecidableEq

/-- The pending word, completed. -/
def Pending.finish : Pending → Except SyntaxError (List Lexeme)
  | .nothing => .ok []
  | .number reversed =>
    match Decimal.ofPositional? reversed.reverse with
    | some d => .ok [Lexeme.number (.ofDecimal false d)]
    | none => .error (.invalidNumber reversed.reverse)
  | .name reversed => .ok [Lexeme.name (String.ofList reversed.reverse)]

/-- The words that `c` completes when no word is pending, and the word that it begins. -/
def start (c : Char) : Except SyntaxError (List Lexeme × Pending) :=
  if Text.isBlank c then .ok ([], .nothing)
  else match ofChar? c with
    | some lexeme => .ok ([lexeme], .nothing)
    | none =>
      if isNumberPart c then .ok ([], .number [c])
      else if Text.isIdentifierStart c then .ok ([], .name [c])
      else .error (.unexpectedCharacter c)

/-- The pending word with `c` added, if `c` goes on with it. -/
def Pending.extend? (c : Char) : Pending → Option Pending
  | .nothing => none
  | .number reversed => if isNumberPart c then some (.number (c :: reversed)) else none
  | .name reversed => if Text.isIdentifierPart c then some (.name (c :: reversed)) else none

/-- The words of the rest of a text, after a pending word. -/
def scanFrom (pending : Pending) : List Char → Except SyntaxError (List Lexeme)
  | [] => pending.finish
  | c :: rest =>
    match pending.extend? c with
    | some pending => scanFrom pending rest
    | none => do
      let finished ← pending.finish
      let (single, next) ← start c
      let lexemes ← scanFrom next rest
      return finished ++ single ++ lexemes

/-- The words of an arithmetic text. -/
def scan (text : List Char) : Except SyntaxError (List Lexeme) :=
  scanFrom .nothing text

end Lexeme

end MetricFormula
