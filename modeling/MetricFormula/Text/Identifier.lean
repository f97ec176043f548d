import MetricFormula.Text.Letter

/-!
# Identifiers

Metric ids and function names are identifiers: a letter, `_` or `$`, followed by any number of
those and of numerals.
-/

namespace MetricFormula.Text

/-- `c` may begin an identifier. -/
def isIdentifierStart (c : Char) : Bool :=
  isLetter c || c == '_' || c == '$'

/-- `c` may stand in an identifier after its first character. -/
def isIdentifierPart (c : Char) : Bool :=
  isIdentifierStart c || isNumeral c

/-- The whole text is one identifier. -/
def isIdentifier : List Char → Bool
  | [] => false
  | c :: rest => isIdentifierStart c && rest.all isIdentifierPart

end MetricFormula.Text
