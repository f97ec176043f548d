/-!
# Bracket balance

Each of the three kinds of brackets is checked on its own: as many closing brackets as opening
ones, and the closing bracket of every rank stands after the opening bracket of that rank.
-/

namespace MetricFormula

/-- The kinds of brackets, each with its opening and its closing character. -/
def bracketPairs : List (Char × Char) :=
  [('(', ')'), ('{', '}'), ('[', ']')]

/-- The indices at which `c` stands in the text. -/
def indicesOf (c : Char) (text : List Char) : List Nat :=
  text.zipIdx.filterMap fun (d, i) => if d = c then some i else none

/-- There are as many of the one as of the other list, and each index of the first is below its
partner in the second. -/
def pairedInOrder : List Nat → List Nat → Bool
  | [], [] => true
  | i :: opening, j :: closing => decide (i < j) && pairedInOrder opening closing
  | _, _ => false

/-- The brackets of all three kinds are balanced. -/
def bracketsBalanced (text : List Char) : Bool :=
  bracketPairs.all fun (opening, closing) =>
    pairedInOrder (indicesOf opening text) (indicesOf closing text)

end MetricFormula
