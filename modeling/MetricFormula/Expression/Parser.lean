import MetricFormula.Expression.Basic
import MetricFormula.Expression.Lexeme

/-!
# Parsing arithmetic

Multiplication and division bind more tightly than addition and subtraction, and all of them group
to the left; a minus sign before an operand binds more tightly than any of them, and a plus sign
there is dropped. Every parenthesis, call and sign before an operand uses up one level of nesting;
the levels that remain are what the recursion descends on. Between levels only the chains of
operators and of arguments repeat, and every round of theirs takes a word.
-/

namespace MetricFormula

namespace Expression

/-- A reader of the words at the start of a list: what they say, and the words that follow. -/
abbrev Reader (α : Type) := List Lexeme → Except SyntaxError (α × List Lexeme)

/-- Addition and subtraction signs. -/
def additive? : Lexeme → Option Arithmetic
  | .plus => some .add
  | .minus => some .subtract
  | _ => none

/-- Multiplication and division signs. -/
def multiplicative? : Lexeme → Option Arithmetic
  | .star => some .multiply
  | .slash => some .divide
  | _ => none

/-- Apply operators to `left` as long as one follows. The number of rounds is bounded by the number
of words. -/
def chainFrom (operand : Reader Expression) (operator? : Lexeme → Option Arithmetic) :
    Nat → Expression → Reader Expression
  | 0, left, lexemes => .ok (left, lexemes)
  | _ + 1, left, [] => .ok (left, [])
  | rounds + 1, left, lexeme :: rest =>
    match operator? lexeme with
    | none => .ok (left, lexeme :: rest)
    | some op => do
      let (right, rest) ← operand rest
      chainFrom operand operator? rounds (.operation (.binary op) [left, right]) rest

/-- Operands with operators between them, grouped to the left. -/
def chain (operand : Reader Expression) (operator? : Lexeme → Option Arithmetic) :
    Reader Expression := fun lexemes => do
  let (left, rest) ← operand lexemes
  chainFrom operand operator? rest.length left rest

/-- Products of operands. -/
def product (operand : Reader Expression) : Reader Expression :=
  chain operand multiplicative?

/-- Sums of products of operands. -/
def sum (operand : Reader Expression) : Reader Expression :=
  chain (product operand) additive?

/-- Arguments with commas between them, up to and with the closing parenthesis. The number of
rounds is bounded by the number of words. -/
def argumentsFrom (argument : Reader Expression) : Nat → Reader (List Expression)
  | 0, _ => .error .missingCallClosing
  | rounds + 1, lexemes => do
    let (first, rest) ← argument lexemes
    match rest with
    | .closing :: rest => .ok ([first], rest)
    | .comma :: rest =>
      let (others, rest) ← argumentsFrom argument rounds rest
      .ok (first :: others, rest)
    | found :: _ => .error (.expectedSeparator found)
    | [] => .error .missingCallClosing

/-- The arguments of a call after its opening parenthesis. -/
def arguments (argument : Reader Expression) : Reader (List Expression)
  | .closing :: rest => .ok ([], rest)
  | lexemes => argumentsFrom argument (lexemes.length + 1) lexemes

/-- The closing parenthesis after an inner expression. -/
def close (inner : Expression) : Reader Expression
  | .closing :: rest => .ok (.parenthesized inner, rest)
  | found :: _ => .error (.expectedClosing found)
  | [] => .error .missingClosing

/-- An operand with its signs, when `levels` levels of nesting are left and the whole text has
`count` words. -/
def operand (count : Nat) : Nat → Reader Expression
  | 0, _ => .error .tooDeep
  | levels + 1, lexemes =>
    match lexemes with
    | [] => .error .unexpectedEnd
    | .plus :: rest => operand count levels rest
    | .minus :: rest => do
      let (inner, rest) ← operand count levels rest
      .ok (.operation .negate [inner], rest)
    | .number value :: rest => .ok (.number value, rest)
    | .name function :: .opening :: rest => do
      let (args, rest) ← arguments (sum (operand count levels)) rest
      .ok (.call function args, rest)
    | .name id :: rest => .ok (.name id, rest)
    | .opening :: rest => do
      let (inner, rest) ← sum (operand count levels) rest
      close inner rest
    | lexeme :: rest => .error (.unexpected lexeme (count - (rest.length + 1)))

/-- The expression that a whole list of words makes. -/
def ofLexemes (lexemes : List Lexeme) : Except SyntaxError Expression := do
  let count := lexemes.length
  if count = 0 then throw .emptyExpression
  if lexemeLimit < count then throw (.tooLong count)
  let (expression, rest) ← sum (operand count (nestingLimit + 1)) lexemes
  match rest with
  | [] => return expression
  | lexeme :: rest => throw (.unexpected lexeme (count - (rest.length + 1)))

/-- The expression that a text makes. -/
def parse (text : List Char) : Except SyntaxError Expression := do
  ofLexemes (← Lexeme.scan text)

end Expression

end MetricFormula
